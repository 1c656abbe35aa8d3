import PixelHost.Lua.Value
import Std.Data.HashMap
import Std.Data.HashSet

/-!
# Tables

A table maps keys to values. Integer keys from one on may be kept in an array; all other keys are
kept in numbered slots, in the order in which they came, with an index from keys to slots. The array
may hold `nil`, and a slot whose value is `nil` counts as empty.

When the slots are used up the table is laid out again: the array takes the largest power of two
such that more than half of it is in use, and the slots the next power of two that holds the other
keys. The layout can be observed: the length of a table with gaps is a border that depends on it.

## Main definitions

* `Lua.Table` — tables.
* `Lua.Table.get`, `Lua.Table.set` — reading and writing.
* `Lua.Table.length` — a border.
* `Lua.Table.next?` — iteration.
* `Lua.Table.bytes` — the memory that a table takes.
-/

namespace PixelHost.Lua

/-- A table with its metatable. -/
structure Table where
  array : Array Value := #[]
  index : Std.HashMap Value Nat := ∅
  keys : Array Value := #[]
  values : Array Value := #[]
  /-- The number of slots. -/
  capacity : Nat := 0
  metatable : Option TableRef := none

instance : Inhabited Table := ⟨{}⟩

namespace Table

/-- The memory of a table without parts. -/
def headerBytes : Nat := 56

/-- The memory that a table takes. -/
@[inline] def bytes (t : Table) : Nat := headerBytes + 16 * t.array.size + 24 * t.capacity

/-- The value in the slot of a key. -/
@[inline] def inSlot (t : Table) (k : Value) : Value :=
  match t.index[k]? with
  | some i => t.values.getD i .nil
  | none => .nil

/-- The value at an integer key. -/
@[inline] def getInt (t : Table) (n : Int64) : Value :=
  let i := n.toUInt64 - 1
  if i.toNat < t.array.size then t.array.getD i.toNat .nil else t.inSlot (.int n)

/-- The value at a key. -/
def get (t : Table) (k : Value) : Value :=
  match k with
  | .nil => .nil
  | .int n => t.getInt n
  | .num x =>
    match Binary64.toInt64? x with
    | some n => t.getInt n
    | none => t.inSlot (.num x)
  | k => t.inSlot k

/-- The value at a key that is a string. -/
@[inline] def getStr (t : Table) (k : Bytes) : Value := t.inSlot (.str k)

/-! ### Layout -/

/-- The least `e` such that `n ≤ 2^e`. -/
def ceilLog2 (n : Nat) : Nat := if n ≤ 1 then 0 else (n - 1).log2 + 1

/-- The number of slots that hold `n` keys. -/
def slotsFor (n : Nat) : Nat := if n = 0 then 0 else 1 <<< ceilLog2 n

/-- Counts a key by the power of two that bounds it: entry `e` counts the integers `k` with
`2^(e-1) < k ≤ 2^e`. -/
def countKey (counts : Array Nat) (k : Value) : Array Nat :=
  match k with
  | .int n => if 0 < n ∧ n ≤ 0x4000000 then counts.modify (ceilLog2 n.toInt.toNat) (· + 1) else counts
  | _ => counts

/-- Counts the keys in the array. -/
def countArray (array : Array Value) (counts : Array Nat) : Array Nat :=
  go 1 1 0 counts array.size
where
  /-- `i` is the next key, `limit` the power of two that bounds it and `e` its exponent. -/
  go (i limit e : Nat) (counts : Array Nat) : Nat → Array Nat
    | 0 => counts
    | n + 1 =>
      let (limit, e) := if i > limit then (limit * 2, e + 1) else (limit, e)
      let counts := if (array.getD (i - 1) .nil).isNil then counts else counts.modify e (· + 1)
      go (i + 1) limit e counts n

/-- The best size of the array and the number of keys that it takes, from the counts of integer keys
from exponent `e` on. `total` is the number of integer keys, `sum` that of the keys seen. -/
def bestArray (counts : Array Nat) (total : Nat) : (steps e sum size taken : Nat) → Nat × Nat
  | 0, _, _, size, taken => (size, taken)
  | steps + 1, e, sum, size, taken =>
    let limit := 1 <<< e
    if total > limit / 2 then
      let sum := sum + counts.getD e 0
      if sum > limit / 2 then bestArray counts total steps (e + 1) sum limit sum
      else bestArray counts total steps (e + 1) sum size taken
    else (size, taken)

/-- The keys and values of the slots in use. -/
def liveSlots (t : Table) : Array (Value × Value) :=
  (t.keys.zip t.values).filter fun (_, v) => !v.isNil

/-- Puts a value into a slot of its own. -/
@[inline] def pushSlot (t : Table) (k v : Value) : Table :=
  let i := t.keys.size
  { t with index := t.index.insert k i, keys := t.keys.push k, values := t.values.push v }

/-- Puts a value at a key that has no place yet: into the array if it reaches so far, else into a
slot. -/
def place (t : Table) (k v : Value) : Table :=
  match k with
  | .int n =>
    let i := n.toUInt64 - 1
    if i.toNat < t.array.size then { t with array := t.array.setIfInBounds i.toNat v }
    else t.pushSlot k v
  | k => t.pushSlot k v

/-- The table with an array and slots of given sizes. -/
def resize (t : Table) (arraySize slots : Nat) : Table :=
  let old := t.array
  let array := if arraySize ≤ old.size then old.extract 0 arraySize
    else old ++ Array.replicate (arraySize - old.size) Value.nil
  let live := t.liveSlots
  let start : Table := { array, capacity := slotsFor slots, metatable := t.metatable }
  let spilled := Nat.fold (old.size - arraySize) (fun i _ (t : Table) =>
    let v := old.getD (arraySize + i) .nil
    if v.isNil then t else t.pushSlot (.ofNat (arraySize + i + 1)) v) start
  live.foldl (fun t (k, v) => t.place k v) spilled

/-- The table laid out again with room for one more key. -/
def rehash (t : Table) (extra : Value) : Table :=
  let counts := countArray t.array (Array.replicate 27 0)
  let live := t.liveSlots
  let inArray := counts.foldl (· + ·) 0
  let counts := live.foldl (fun counts (k, _) => countKey counts k) counts
  let counts := countKey counts extra
  let integers := counts.foldl (· + ·) 0
  let (size, taken) := bestArray counts integers 27 0 0 0 0
  t.resize size (inArray + live.size + 1 - taken)

/-- The table with an array of at least a given size. -/
def growArray (t : Table) (arraySize : Nat) : Table :=
  if arraySize ≤ t.array.size then t
  else { t.resize arraySize t.keys.size with capacity := t.capacity }

/-! ### Writing -/

/-- The table with a value at a key that is neither `nil` nor a not-a-number nor a double that is an
integer. -/
def setNormal (t : Table) (k v : Value) : Table :=
  let inSlots (t : Table) (k : Value) : Table :=
    match t.index[k]? with
    | some i => { t with values := t.values.setIfInBounds i v }
    | none =>
      if v.isNil then t
      else if t.keys.size < t.capacity then t.pushSlot k v
      else (t.rehash k).place k v
  match k with
  | .int n =>
    let i := n.toUInt64 - 1
    if i.toNat < t.array.size then { t with array := t.array.setIfInBounds i.toNat v }
    else inSlots t k
  | k => inSlots t k

/-- The table with a value at a key that is neither `nil` nor a not-a-number. -/
@[inline] def set (t : Table) (k v : Value) : Table := t.setNormal k.normalKey v

/-- The table with a value at a string key. -/
def setStr (t : Table) (k : String) (v : Value) : Table := t.set (.ofString k) v

/-- The table with the values of a list at the keys after an offset. -/
def setSequence (t : Table) (offset : Nat) (vs : Array Value) : Table :=
  Nat.fold vs.size (fun i h (t : Table) => t.set (.ofNat (offset + i + 1)) vs[i]) t

/-- An empty table with room for a sequence and for other keys. -/
def withRoom (arraySize slots : Nat) : Table :=
  { array := Array.replicate arraySize .nil, capacity := slotsFor slots }

/-- The table of a sequence. -/
def ofSequence (vs : Array Value) : Table := { array := vs }

/-- The table of named values. -/
def ofFields (fields : List (String × Value)) : Table :=
  fields.foldl (fun t (k, v) => t.setStr k v) (withRoom 0 fields.length)

/-! ### Length -/

/-- A border between `i`, which is present or zero, and `j`, which is absent. -/
def borderBetween (present : Nat → Bool) (i j : Nat) : Nat → Nat
  | 0 => i
  | n + 1 =>
    if j - i > 1 then
      let m := (i + j) / 2
      if present m then borderBetween present m j n else borderBetween present i m n
    else i

/-- The largest integer key. -/
def maxKey : Nat := 0x7FFFFFFFFFFFFFFF

/-- Doubles `j`, which is present, until an absent key is found, and gives a border below it. -/
def borderBeyond (present : Nat → Bool) (j : Nat) : Nat → Nat
  | 0 => j
  | n + 1 =>
    let i := j
    if j ≤ 0x3FFFFFFFFFFFFFFF then
      if present (2 * j) then borderBeyond present (2 * j) n
      else borderBetween present i (2 * j) 64
    else if present maxKey then maxKey
    else borderBetween present i maxKey 64

/-- A border of the table: a natural number `n` such that `n` is zero or present and `n + 1` is
absent. -/
def length (t : Table) : Nat :=
  let n := t.array.size
  let inArray (i : Nat) : Bool := !(t.array.getD (i - 1) .nil).isNil
  if n > 0 ∧ (t.array.getD (n - 1) .nil).isNil then
    if n ≥ 2 ∧ inArray (n - 1) then n - 1 else borderBetween inArray 0 n 64
  else if t.capacity = 0 then n
  else
    let present (i : Nat) : Bool := !(t.getInt (Int64.ofNat i)).isNil
    if present (n + 1) then borderBeyond present (max n 1) 64 else n

/-! ### Iteration -/

/-- The first entry of the slots from a slot on. -/
def nextSlot? (t : Table) (i : Nat) : Option (Value × Value) :=
  if h : i < t.keys.size then
    let v := t.values.getD i .nil
    if v.isNil then nextSlot? t (i + 1) else some (t.keys[i], v)
  else none
termination_by t.keys.size - i

/-- The first entry from an array position on. -/
def nextEntry? (t : Table) (i : Nat) : Option (Value × Value) :=
  if h : i < t.array.size then
    if (t.array[i]).isNil then nextEntry? t (i + 1) else some (.ofNat (i + 1), t.array[i])
  else t.nextSlot? 0
termination_by t.array.size - i

/-- The entry after a key, or the first one after `nil`; `none` at the end. An unknown key has no
place in the iteration. -/
def next? (t : Table) (k : Value) : Except Unit (Option (Value × Value)) :=
  match k.normalKey with
  | .nil => .ok (t.nextEntry? 0)
  | .int n =>
    let i := n.toUInt64 - 1
    if i.toNat < t.array.size then .ok (t.nextEntry? (i.toNat + 1))
    else match t.index[Value.int n]? with
      | some i => .ok (t.nextSlot? (i + 1))
      | none => .error ()
  | k =>
    match t.index[k]? with
    | some i => .ok (t.nextSlot? (i + 1))
    | none => .error ()

/-- All entries in the order of iteration. -/
def entries (t : Table) : List (Value × Value) :=
  let inArray := (List.range t.array.size).filterMap fun i =>
    let v := t.array.getD i .nil
    if v.isNil then none else some (Value.ofNat (i + 1), v)
  inArray ++ t.liveSlots.toList

end Table

end PixelHost.Lua
