import PixelHost.ScriptError

/-!
# Delays

How long a program waits between two invocations.

## Main definitions

* `Duration` — a span of time.
* `Delay` — a wait, which may have no end.
* `Delay.ofScript` — the delay that a script asks for by an integer.
-/

namespace PixelHost

/-- A span of time. -/
structure Duration where
  nanoseconds : Nat
  deriving DecidableEq, Repr, Inhabited

namespace Duration

/-- A number of milliseconds. -/
def ofMillis (ms : Nat) : Duration := ⟨ms * 1000000⟩

/-- The whole milliseconds of a span. -/
def millis (d : Duration) : Nat := d.nanoseconds / 1000000

/-- The whole seconds of a span. -/
def seconds (d : Duration) : Nat := d.nanoseconds / 1000000000

/-- The whole milliseconds beyond the whole seconds. -/
def millisBeyondSeconds (d : Duration) : Nat := d.millis % 1000

end Duration

/-- How long a program waits until it is invoked again. -/
inductive Delay where
  | millis (ms : UInt64)
  /-- The program is not invoked again. -/
  | forever
  deriving DecidableEq, Repr, Inhabited

namespace Delay

/-- The integer by which a script asks for no further invocation. -/
def foreverCode : Int64 := -1

/-- The program is not invoked again. -/
def isForever : Delay → Bool
  | millis _ => false
  | forever => true

/-- The span of a delay that has an end. -/
def duration? : Delay → Option Duration
  | millis ms => some (.ofMillis ms.toNat)
  | forever => none

/-- The delay that a script asks for by an integer. -/
def ofScript (code : Int64) : Except ScriptError Delay :=
  if code = foreverCode then .ok forever
  else if 0 ≤ code then .ok (millis code.toUInt64)
  else .error (.runtime
    s!"delay must be a non-negative integer or DELAY_FOREVER, got {code.toInt}")

/-- The text of a delay. -/
def text : Delay → String
  | millis ms => s!"{ms.toNat}ms"
  | forever => "forever"

end Delay

end PixelHost
