import PixelHost.Lua.Collect
import PixelHost.Lua.Operation

/-!
# Calls inside of library functions

What a library function does with values when metamethods may be involved: it calls them and waits
for their results. Such a call is carried out to its end before the library function goes on, so a
coroutine cannot be suspended inside of it.

## Main definitions

* `Lua.Caller.call` — calls a function and gives its results.
* `Lua.Caller.element`, `Lua.Caller.setElement`, `Lua.Caller.lengthOf`, `Lua.Caller.isLess` —
  operations on values.
* `Lua.Caller.textOf` — the text of a value.
-/

namespace PixelHost.Lua

/-- The text of a place in memory. -/
def addressText (kind place : Nat) : String :=
  let digits := String.ofList (Nat.toDigits 16 (0x550000000000 + kind * 0x100000000 + place * 64))
  "0x" ++ digits

/-- The text that a caught host error has for a script. -/
def HostError.scriptText : HostError → String
  | .reported text => "runtime error: " ++ text ++ "\nstack traceback:\n\t[C]: in ?"
  | .fatal text => text

/-- The text of a value without metamethods; a value without a text of its own is shown by the name
of its type and its place. -/
def Value.plainText (v : Value) (typeName : Bytes) : Bytes :=
  let placed (kind place : Nat) : Bytes := typeName ++ ": ".toUTF8 ++ (addressText kind place).toUTF8
  match v with
  | .nil => "nil".toUTF8
  | .bool b => (if b then "true" else "false").toUTF8
  | .int n => (toString n.toInt).toUTF8
  | .num x => (Value.floatText x).toUTF8
  | .str s => s
  | .table r => placed 1 r
  | .closure f => placed 2 f.id
  | .native f => typeName ++ ": builtin: ".toUTF8 ++ (f.qualifiedName?.getD "?").toUTF8
  | .thread r => placed 3 r
  | .failure _ error => error.scriptText.toUTF8
  | .file name => ("file (" ++ name ++ ")").toUTF8

namespace Caller

/-- Calls a function and gives its results. -/
def call (c : Caller) (f : Value) (args : Array Value) : Run (Array Value) := do
  modify fun m => { m with pinned := m.pinned + 1, holding := m.holding + 1 }
  let request ← Run.callValue f args .done
  match ← c.run request with
  | .returned results =>
    modify fun m => { m with pinned := m.pinned - 1, holding := m.holding - 1 }
    return results
  | .yielded values => return values

/-- Calls a function and gives its first result. -/
def callOne (c : Caller) (f : Value) (args : Array Value) : Run Value :=
  return (← c.call f args).getD 0 .nil

/-- The value of an outcome. -/
def resolve (c : Caller) (outcome : Outcome) : Run Value := do
  match outcome with
  | .value v => return v
  | .call f args => c.callOne f args

/-- The element of a value at a key. -/
def element (c : Caller) (v key : Value) : Run Value := do
  c.resolve (← Run.lookUp v key .unknown)

/-- Assigns the element of a value at a key. -/
def setElement (c : Caller) (v key new : Value) : Run Unit := do
  match ← Run.assign v key new .unknown with
  | none => return
  | some (f, args) => discard (c.call f args)

/-- The length of a value. -/
def lengthOf (c : Caller) (v : Value) : Run Int64 := do
  match ← c.resolve (← Run.unary .length v .unknown) with
  | .int n => return n
  | v =>
    match v.asNumeral?.bind Arith.toInt64? with
    | some n => return n
    | none => Run.fail "object length is not an integer"

/-- The result of a comparison. -/
def holds (c : Caller) (op : CompareOp) (x y : Value) : Run Bool := do
  match ← Run.comparison op x y with
  | .known b => return b
  | .ask f x y expected => return (← c.callOne f #[x, y]).truthy == expected

/-- The text of a value. -/
def textOf (c : Caller) (v : Value) : Run Bytes := do
  let h ← Run.metamethod v Event.toString
  if h.isNil then return v.plainText (← Run.typeNameOf v)
  else
    match (← c.callOne h #[v]).asString? with
    | some s => return s
    | none => Run.fail "'__tostring' must return a string"

end Caller

end PixelHost.Lua
