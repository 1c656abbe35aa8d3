import PixelHost.Lua.Nested

/-!
# Arguments of library functions

Reading of arguments with the conversions that the language allows, and the messages for those that
do not fit. Arguments are counted from one.

## Main definitions

* `Lua.Args` — the arguments of a call.
* `Lua.Args.integer`, `Lua.Args.number`, `Lua.Args.string` — a required argument of a kind.
* `Lua.Args.integerOr`, `Lua.Args.numberOr`, `Lua.Args.stringOr` — an optional one.
-/

namespace PixelHost.Lua

/-- The arguments of a call. -/
abbrev Args := Array Value

namespace Args

/-- An argument, `nil` if it is absent. -/
@[inline] def val (args : Args) (n : Nat) : Value := args.getD (n - 1) .nil

/-- An argument is absent. -/
@[inline] def isAbsent (args : Args) (n : Nat) : Bool := args.size < n

/-- An argument is absent or `nil`. -/
@[inline] def isNone (args : Args) (n : Nat) : Bool := (args.val n).isNil

/-- Some value must be given. -/
def any (args : Args) (n : Nat) : Run Value := do
  if args.isAbsent n then Run.badArgument n "value expected".toUTF8
  else return args.val n

/-- Stops because an argument is no integer. -/
def noInteger {α : Type} (args : Args) (n : Nat) : Run α := do
  if (args.val n).asNumeral?.isSome then
    Run.badArgument n "number has no integer representation".toUTF8
  else Run.badType args n "number"

/-- An integer, or a number or string that stands for one. -/
def integer (args : Args) (n : Nat) : Run Int64 := do
  match args.val n with
  | .int i => return i
  | v =>
    match v.asNumeral?.bind Arith.toInt64? with
    | some i => return i
    | none => args.noInteger n

/-- An optional integer. -/
def integerOr (args : Args) (n : Nat) (absent : Int64) : Run Int64 :=
  if args.isNone n then return absent else args.integer n

/-- A number of either kind, or a string that stands for one. -/
def numeral (args : Args) (n : Nat) : Run Numeral := do
  match (args.val n).asNumeral? with
  | some x => return x
  | none => Run.badType args n "number"

/-- A double, or what stands for one. -/
def number (args : Args) (n : Nat) : Run Float := return Arith.toFloat (← args.numeral n)

/-- An optional double. -/
def numberOr (args : Args) (n : Nat) (absent : Float) : Run Float :=
  if args.isNone n then return absent else args.number n

/-- A string, or a number by its text. -/
def string (args : Args) (n : Nat) : Run Bytes := do
  match (args.val n).asString? with
  | some s => return s
  | none => Run.badType args n "string"

/-- An optional string. -/
def stringOr (args : Args) (n : Nat) (absent : Bytes) : Run Bytes :=
  if args.isNone n then return absent else args.string n

/-- A table. -/
def table (args : Args) (n : Nat) : Run TableRef := do
  match args.val n with
  | .table r => return r
  | _ => Run.badType args n "table"

/-- A function. -/
def function (args : Args) (n : Nat) : Run Value := do
  if (args.val n).isFunction then return args.val n else Run.badType args n "function"

/-- A condition on an argument must hold. -/
def require (n : Nat) (condition : Bool) (message : String) : Run Unit := do
  unless condition do Run.badArgument n message.toUTF8

end Args

/-- An integer as a position: negative ones count from the end of a text of some length. -/
def fromEnd (i : Int64) (length : Nat) : Int :=
  if i ≥ 0 then i.toInt else length + i.toInt

/-- The start of a part of a text, from one on; a position before the text is its start. -/
def startPosition (i : Int64) (length : Nat) : Nat :=
  if i > 0 then i.toInt.toNat
  else if i == 0 then 1
  else if i.toInt < -Int.ofNat length then 1
  else (Int.ofNat length + i.toInt + 1).toNat

/-- The end of a part of a text; a position after the text is its end. -/
def endPosition (i : Int64) (length : Nat) : Nat :=
  if i.toInt > Int.ofNat length then length
  else if i ≥ 0 then i.toInt.toNat
  else if i.toInt < -Int.ofNat length then 0
  else (Int.ofNat length + i.toInt + 1).toNat

end PixelHost.Lua
