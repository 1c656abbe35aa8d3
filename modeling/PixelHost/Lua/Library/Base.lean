import PixelHost.Lua.Chunk
import PixelHost.Lua.Library.Argument

/-!
# Global functions

The functions that a script calls by a global name. Protected calls and the preparation of an
iteration over pairs are activations of their own and are not found here (`PixelHost.Lua.Call`).

## Main definitions

* `Lua.Library.Base.run` — carries out a global function.
* `Lua.Run.loadChunk` — makes a function of a compiled chunk.
-/

namespace PixelHost.Lua

namespace Run

/-- Makes a function of a compiled chunk, with an environment for its global names. -/
def loadChunk (p : Prototype) (environment : Value) : Run Value := do
  charge (p.bytes + 40)
  let cell ← newCell (.closed environment)
  return .closure ⟨← freshId, p, #[cell]⟩

/-- Stops with an error value; a string gets the place where the error is reported from. -/
def raiseAtLevel {α : Type} (v : Value) (level : Int64) : Run α := do
  match v with
  | .str s =>
    if level > 0 then raise (.str ((← whereAt level.toInt.toNat) ++ s)) else raise v
  | v => raise v

/-- Prints bytes. -/
def write (s : Bytes) : Run Unit := modify fun m => { m with output := m.output ++ s }

end Run

namespace Digits

/-- The value of a digit or letter. -/
def value? (c : UInt8) : Option Nat :=
  if 48 ≤ c && c ≤ 57 then some (c.toNat - 48)
  else if 97 ≤ c && c ≤ 122 then some (c.toNat - 87)
  else if 65 ≤ c && c ≤ 90 then some (c.toNat - 55)
  else none

/-- Reads digits of a base, at least one. -/
def take (base : Nat) (acc count : Nat) : List UInt8 → Option (Nat × List UInt8)
  | [] => if count = 0 then none else some (acc, [])
  | c :: rest =>
    match value? c with
    | some d => if d < base then take base (acc * base + d) (count + 1) rest else none
    | none => if count = 0 then none else some (acc, c :: rest)

/-- The integer that a text spells in a base. It wraps around. -/
def integer? (s : Bytes) (base : Nat) : Option Int64 := do
  let (negative, digits) := Numeral.takeSign (Numeral.skipSpace s.toList)
  let (n, rest) ← take base 0 0 digits
  if Numeral.onlySpace rest then
    let i := Int64.ofNat n
    return if negative then -i else i
  else none

end Digits

namespace Library.Base

open Run

/-- Collects the parts of a chunk that a function gives one by one, until it gives no more. -/
def readParts (c : Caller) (f : Value) (acc : Bytes) : Nat → Run Bytes
  | 0 => return acc
  | n + 1 => do
    match ← c.callOne f #[] with
    | .nil => return acc
    | v =>
      match v.asString? with
      | some s => if s.isEmpty then return acc else readParts c f (acc ++ s) n
      | none => fail "reader function must return a string"

/-- Compiles a chunk to a function; gives the message if it is none. -/
def load (c : Caller) (args : Args) : Run (Array Value) := do
  let (source, name) ← match (args.val 1).asString? with
    | some s => pure (s, ← args.stringOr 2 s)
    | none =>
      let name ← args.stringOr 2 "=(load)".toUTF8
      let f ← args.function 1
      pure (← readParts c f .empty 1000000, name)
  let environment ← if args.isAbsent 4 then pure (Value.table (← get).globals) else pure (args.val 4)
  match Chunk.compile source name with
  | .ok p => return #[← loadChunk p environment]
  | .error e => return #[.nil, .str e.message]

/-- The number that a text or number stands for. -/
def toNumber (args : Args) : Run (Array Value) := do
  if args.isNone 2 then
    match args.val 1 with
    | .int n => return #[.int n]
    | .num x => return #[.num x]
    | .str s =>
      match Numeral.read? s with
      | some n => return #[.ofNumeral n]
      | none => return #[.nil]
    | _ =>
      discard (args.any 1)
      return #[.nil]
  else
    let base ← args.integer 2
    match args.val 1 with
    | .str s =>
      Args.require 2 (2 ≤ base && base ≤ 36) "base out of range"
      match Digits.integer? s base.toInt.toNat with
      | some n => return #[.int n]
      | none => return #[.nil]
    | _ => badType args 1 "string"

/-- Some of the arguments, from a position on, or their number. -/
def select (args : Args) : Run (Array Value) := do
  let count := args.size
  if args.val 1 matches .str _ && (args.val 1).asString?.bind (·.get? 0) == some 35 then
    return #[.ofNat (count - 1)]
  else
    let i ← args.integer 1
    if i < 0 then
      let first := Int.ofNat count + i.toInt
      Args.require 1 (1 ≤ first) "index out of range"
      return args.extract first.toNat count
    else
      Args.require 1 (1 ≤ i) "index out of range"
      return args.extract (min i.toInt.toNat count) count

/-- Gives a table a metatable. Its `__gc` and `__mode` are entries without a meaning. -/
def setMetatable (args : Args) : Run (Array Value) := do
  let r ← args.table 1
  let mt ← match args.val 2 with
    | .table mt => pure (some mt)
    | .nil => if args.isAbsent 2 then badType args 2 "nil or table" else pure none
    | _ => badType args 2 "nil or table"
  unless (← metamethod (args.val 1) Event.metatable).isNil do
    fail "cannot change a protected metatable"
  modifyTable r fun t => { t with metatable := mt }
  return #[args.val 1]

/-- The metatable of a value, or what it shows instead. -/
def getMetatable (args : Args) : Run (Array Value) := do
  match ← args.any 1 with
  | .failure _ _ => return #[.bool false]
  | v =>
    match ← metatable? v with
    | none => return #[.nil]
    | some mt =>
      let shown := (← tableAt mt).getStr Event.metatable
      return #[if shown.isNil then .table mt else shown]

/-- The memory in use, for a script that asks for it; other requests have nothing to do. -/
def collectGarbage (args : Args) : Run (Array Value) := do
  let option ← args.stringOr 1 "collect".toUTF8
  match String.fromUTF8? option with
  | some "count" => return #[.num ((← get).charge.toFloat / 1024)]
  | some "step" => return #[.bool true]
  | some "isrunning" => return #[.bool true]
  | some "incremental" | some "generational" => return #[.str "incremental".toUTF8]
  | some "collect" =>
    recount
    return #[.int 0]
  | some "stop" | some "restart" | some "setpause" | some "setstepmul" => return #[.int 0]
  | _ => badArgument 1 ("invalid option ".toUTF8 ++ Token.quoted option)

/-- The entry of a table after a key. -/
def next (args : Args) : Run (Array Value) := do
  let r ← args.table 1
  match (← tableAt r).next? (args.val 2) with
  | .ok (some (k, v)) => return #[k, v]
  | .ok none => return #[.nil]
  | .error () => raiseHere "invalid key to 'next'".toUTF8

/-- Carries out a global function. -/
def run (c : Caller) (f : BaseFn) (args : Args) : Run (Array Value) := do
  match f with
  | .assert =>
    if (args.val 1).truthy then return args
    else
      discard (args.any 1)
      if args.isAbsent 2 then raiseAtLevel (.ofString "assertion failed!") 1
      else raiseAtLevel (args.val 2) 1
  | .collectgarbage => collectGarbage args
  | .dofile =>
    let name ← args.stringOr 1 "stdin".toUTF8
    raise (.str ("cannot open ".toUTF8 ++ name))
  | .error =>
    let level ← args.integerOr 2 1
    raiseAtLevel (args.val 1) level
  | .getmetatable => getMetatable args
  | .ipairs =>
    let v ← args.any 1
    return #[.native .sequenceStep, v, .int 0]
  | .load => load c args
  | .loadfile =>
    let name ← args.stringOr 1 "stdin".toUTF8
    return #[.nil, .str ("cannot open ".toUTF8 ++ name)]
  | .next => next args
  | .print =>
    for i in [0:args.size] do
      if i > 0 then write "\t".toUTF8
      write (← c.textOf (args.val (i + 1)))
    write "\n".toUTF8
    return #[]
  | .rawequal => return #[.bool ((← args.any 1).rawEqual (← args.any 2))]
  | .rawget =>
    let r ← args.table 1
    return #[← rawGet r (← args.any 2)]
  | .rawlen =>
    match args.val 1 with
    | .table r => return #[.ofNat (← tableAt r).length]
    | .str s => return #[.ofNat s.size]
    | _ => badType args 1 "table or string"
  | .rawset =>
    let r ← args.table 1
    let k ← args.any 2
    let v ← args.any 3
    checkKey k
    rawSet r k v
    return #[args.val 1]
  | .select => select args
  | .setmetatable => setMetatable args
  | .tonumber => toNumber args
  | .tostring => return #[← newString (← c.textOf (← args.any 1))]
  | .type => return #[.ofString (← args.any 1).typeName]
  | .warn =>
    for i in [0:max 1 args.size] do discard (args.string (i + 1))
    return #[]
  | .pairs | .pcall | .xpcall => return #[]

/-- The next element of a sequence. -/
def sequenceStep (c : Caller) (args : Args) : Run (Array Value) := do
  let i := (← args.integer 2) + 1
  let v ← c.element (args.val 1) (.int i)
  return if v.isNil then #[.nil] else #[.int i, v]

end Library.Base

end PixelHost.Lua
