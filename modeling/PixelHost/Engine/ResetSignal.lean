import PixelHost.Delay

/-!
# The reset signal

A place for one pending request to give up the current wait and to take over another delay. A later
request takes the place of one that is still pending.

The request is kept in one signed 64-bit integer, so that it can be exchanged at once. Two values of
it stand for no request and for a delay without end; all others are numbers of milliseconds.

## Main definitions

* `ResetSignal.raise`, `ResetSignal.isPending`, `ResetSignal.take` — the operations.
-/

namespace PixelHost

/-- A place for a pending request. -/
structure ResetSignal where
  pending : Int64 := Int64.minValue
  deriving DecidableEq, Repr, Inhabited

namespace ResetSignal

/-- No request is pending. -/
def noRequest : Int64 := Int64.minValue

/-- A delay without end is requested. -/
def foreverRequest : Int64 := -1

/-- The integer for a request. A number of milliseconds that does not fit becomes the largest one. -/
def encode : Delay → Int64
  | .forever => foreverRequest
  | .millis ms => Int64.ofNat (min ms.toNat 0x7FFFFFFFFFFFFFFF)

/-- Requests a delay. -/
def raise (_ : ResetSignal) (delay : Delay) : ResetSignal := ⟨encode delay⟩

/-- A request is pending. -/
def isPending (r : ResetSignal) : Bool := r.pending != noRequest

/-- Takes the pending request, if there is one. -/
def take (r : ResetSignal) : Option Delay × ResetSignal :=
  let request :=
    if r.pending = noRequest then none
    else if r.pending = foreverRequest then some .forever
    else some (.millis r.pending.toUInt64)
  (request, ⟨noRequest⟩)

end ResetSignal

end PixelHost
