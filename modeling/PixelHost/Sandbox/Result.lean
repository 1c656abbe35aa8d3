import PixelHost.Engine.Interpreter
import PixelHost.Lua.Table

/-!
# What a script returns

A script returns a frame, a delay and a value for its next invocation. They are checked here, and
nowhere else: the frame is a list of numbers of the right length, the delay an integer.

## Main definitions

* `Sandbox.entryByte?` — the color byte of an entry of a frame.
* `Sandbox.readFrame` — the color bytes of a frame.
* `Sandbox.readDelay` — the delay.
* `Sandbox.readResults` — the outcome of an invocation from the values it returned.
-/

namespace PixelHost.Sandbox

open Lua

/-- The color byte nearest to an integer. -/
def clampByte (n : Int) : UInt8 := UInt8.ofNat (min n.toNat 255)

/-- The color byte of an entry: its floor, clamped. Only numbers have one. -/
def entryByte? : Value → Option UInt8
  | .int n => some (clampByte n.toInt)
  | .num x =>
    match Binary64.view x with
    | .nan => none
    | .infinite negative => some (if negative then 0 else 255)
    | .finite negative m e => some (clampByte (Binary64.floorOf negative m e))
  | _ => none

/-- The color bytes of the entries from a position on. The first entry without one is an error. -/
def readEntries (t : Table) (i : Nat) (acc : Bytes) : Nat → Except ScriptError Bytes
  | 0 => .ok acc
  | n + 1 =>
    let v := t.getInt (Int64.ofNat i)
    match entryByte? v with
    | some b => readEntries t (i + 1) (acc.push b) n
    | none => .error (.runtime s!"frame value #{i} must be a number, got {v.hostTypeName}")

/-- The color bytes of a frame, which must have a given length. -/
def readFrame (frameLength : Nat) (t : Table) : Except ScriptError Bytes :=
  if t.length = frameLength then
    readEntries t 1 (ByteArray.emptyWithCapacity frameLength) frameLength
  else
    .error (.runtime s!"frame must contain exactly {frameLength} values, got {t.length}")

/-- The delay that a value stands for. An integer or a whole double gives milliseconds; nothing
stands for no further invocation. -/
def readDelay (v : Value) : Except ScriptError Delay :=
  let unfit : Except ScriptError Delay :=
    .error (.runtime s!"delay must be an integer number of milliseconds, got {v.hostTypeName}")
  match v with
  | .nil => .ok .forever
  | .int n => Delay.ofScript n
  | .num x =>
    match Binary64.toInt? x with
    | some n => Delay.ofScript (Binary64.saturate n)
    | none => unfit
  | _ => unfit

/-- The value that is handed on to the next invocation. -/
def readMemo (results : Array Value) : Option Value :=
  match results.getD 2 .nil with
  | .nil => none
  | v => some v

/-- The outcome of an invocation from the values it returned. -/
def readResults (frameLength : Nat) (tables : TableRef → Table) (results : Array Value) :
    Except ScriptError (Outcome Value) := do
  match results.toList.head? with
  | some (Value.table r) =>
    let frame ← readFrame frameLength (tables r)
    let delay ← readDelay (results.getD 1 .nil)
    return { frame, delay, memo := readMemo results }
  | other =>
    let got := match other with
      | some v => v.hostTypeName
      | none => "nothing"
    throw (.runtime s!"script must return a frame table first, got {got}")

end PixelHost.Sandbox
