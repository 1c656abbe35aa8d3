import PixelHost.Bytes

/-!
# Frame sinks

Where finished frames go. A write may fail; the frame is lost then, and nothing else happens.

## Main definitions

* `Sink` — a destination of frames.
* `Sink.write` — offers a frame.
-/

namespace PixelHost

/-- A destination of frames. -/
structure Sink where
  /-- Whether a write fails, by the number of writes before it. -/
  fails : Nat → Bool := fun _ => false
  /-- The frames that are taken are kept. -/
  records : Bool := true
  /-- The number of frames that were offered. -/
  offered : Nat := 0
  /-- The frames that were kept. -/
  frames : Array Bytes := #[]

instance : Inhabited Sink := ⟨{}⟩

namespace Sink

/-- A sink that takes every frame and keeps none. -/
def discard : Sink := { records := false }

/-- Offers a frame. Gives whether it was taken. -/
def write (s : Sink) (frame : Bytes) : Bool × Sink :=
  let failed := s.fails s.offered
  let s := { s with offered := s.offered + 1 }
  if failed then (false, s)
  else if s.records then (true, { s with frames := s.frames.push frame })
  else (true, s)

end Sink

end PixelHost
