import PixelHost.Effect.Color
import PixelHost.Effect.Noise
import PixelHost.Lua.Library.Argument

/-!
# Light effects for scripts

The functions that the host adds for scripts. They check the number and the kinds of their arguments
strictly: a string is no number, and a number must be finite. Tables are read without metamethods.

## Main definitions

* `Lua.EffectError` — what can be wrong with the arguments.
* `Lua.EffectError.message` — its text.
* `Lua.EffectError.hostError` — what a script or the host gets to see of it.
* `Lua.EffectFn.apply` — the results of an effect on arguments.
* `Lua.Library.Effects.run` — carries out an effect in a script.
-/

namespace PixelHost.Lua

open Effect

/-- What is wrong with the arguments of an effect. Positions count from one. -/
inductive EffectError where
  | count (effect expected : String) (got : Nat)
  | argument (effect : String) (position : Nat) (expected got : String)
  | noStops
  /-- No memory can hold that many stops. The host breaks off at that, before it looks at them. -/
  | noRoom
  | stop (position : Nat) (got : String)
  | channel (position channel : Nat) (got : String)
  deriving DecidableEq, Repr, Inhabited

namespace EffectError

/-- The text of an error. -/
def message : EffectError → String
  | .count effect expected got => s!"{effect}: expected {expected} argument(s), got {got}"
  | .argument effect position expected got =>
    s!"{effect}: argument #{position} must be {expected}, got {got}"
  | .noStops => "gradient: stops must not be empty"
  | .noRoom => "capacity overflow"
  | .stop position got =>
    s!"gradient: stop #{position} must be an \x7br, g, b\x7d table, got {got}"
  | .channel position i got =>
    s!"gradient: stop #{position} channel {i} must be a number, got {got}"

/-- The error as one of the host. -/
def hostError (e : EffectError) : HostError :=
  match e with
  | .noRoom => .fatal e.message
  | e => .reported e.message

end EffectError

namespace EffectFn

/-- The number that a value is, if it is finite. -/
def finite? : Value → Option Float
  | .int n => some n.toFloat
  | .num x => if x.isFinite then some x else none
  | _ => none

/-- The number of arguments must lie in a range. -/
def checkCount (effect : String) (args : Args) (least most : Nat) : Except EffectError Unit := do
  if args.size < least || args.size > most then
    let expected := if least = most then toString least else s!"{least} to {most}"
    throw (.count effect expected args.size)

/-- An argument that must be a finite number. -/
def numberAt (effect : String) (args : Args) (position : Nat) : Except EffectError Float :=
  match finite? (args.val position) with
  | some x => .ok x
  | none => .error (.argument effect position "a finite number" (args.val position).hostTypeName)

/-- A channel of a stop. -/
def channelAt (t : Table) (position channel : Nat) : Except EffectError Float :=
  let v := t.getInt (Int64.ofNat channel)
  match finite? v with
  | some x => .ok x
  | none => .error (.channel position channel v.hostTypeName)

/-- A stop of a gradient. -/
def stopAt (tables : TableRef → Table) (list : Table) (position : Nat) :
    Except EffectError (Rgb Float) := do
  match list.getInt (Int64.ofNat position) with
  | .table r =>
    let t := tables r
    return ⟨← channelAt t position 1, ← channelAt t position 2, ← channelAt t position 3⟩
  | v => throw (.stop position v.hostTypeName)

/-- The most stops that memory can hold: a stop takes 24 bytes, and at most `2^63 - 1` of them lie
together. -/
def mostStops : Nat := 0x7FFFFFFFFFFFFFFF / 24

/-- The stops of a gradient, at least one. Room for all of them is made first. -/
def stops (tables : TableRef → Table) (list : Table) : Except EffectError (Array (Rgb Float)) := do
  if list.length = 0 then throw .noStops
  if list.length > mostStops then throw .noRoom
  (Array.range list.length).mapM fun i => stopAt tables list (i + 1)

/-- The channels of a color as results. -/
def colorResults (c : Rgb Int64) : Array Value := c.toArray.map .int

/-- The results of an effect on arguments, with the tables of the heap and the time in
nanoseconds. -/
def apply (f : EffectFn) (tables : TableRef → Table) (time : Nat) (args : Args) :
    Except EffectError (Array Value) := do
  match f with
  | .timestamp =>
    checkCount "timestamp" args 0 0
    return #[.int (Int64.ofNat time)]
  | .hsv =>
    checkCount "hsv" args 3 3
    let h ← numberAt "hsv" args 1
    let s ← numberAt "hsv" args 2
    let v ← numberAt "hsv" args 3
    return colorResults (ofHsv h s v)
  | .gradient =>
    checkCount "gradient" args 2 2
    match args.val 1 with
    | .table r =>
      let stops ← stops tables (tables r)
      let t ← numberAt "gradient" args 2
      return colorResults (onGradient stops t)
    | v => throw (.argument "gradient" 1 "a table of \x7br, g, b\x7d stops" v.hostTypeName)
  | .noise =>
    checkCount "noise" args 1 2
    let x ← numberAt "noise" args 1
    let y ← if args.size > 1 then numberAt "noise" args 2 else pure 0
    return #[.num (Effect.noise x y)]

end EffectFn

namespace Library.Effects

/-- The results of an effect in a script, or its error. -/
def settle : Except EffectError (Array Value) → Run (Array Value)
  | .ok results => return results
  | .error e => do Run.raise (.failure (← Run.freshId) e.hostError)

/-- Carries out an effect in a script. -/
def run (f : EffectFn) (args : Args) : Run (Array Value) := do
  let m ← get
  settle (f.apply (m.tables.getD · default) (m.clock * 1000000) args)

end Library.Effects

end PixelHost.Lua
