/-!
# Counters of the engine

The counters have no greatest value. In a word of 64 bits they would start again after so many events
that no host lives to see it.

## Main definitions

* `Metrics` — the counters.
* `Metrics.debugText` — the text that shows them.
-/

namespace PixelHost

/-- What the engine counts. -/
structure Metrics where
  compiles : Nat := 0
  uploadsAccepted : Nat := 0
  uploadsRejected : Nat := 0
  periodicRuns : Nat := 0
  periodicFailures : Nat := 0
  framesWritten : Nat := 0
  sinkErrors : Nat := 0
  resetsAdopted : Nat := 0
  deriving DecidableEq, Repr, Inhabited

namespace Metrics

/-- The counters by name. -/
def fields (m : Metrics) : List (String × Nat) := [
  ("compiles", m.compiles),
  ("uploads_accepted", m.uploadsAccepted),
  ("uploads_rejected", m.uploadsRejected),
  ("periodic_runs", m.periodicRuns),
  ("periodic_failures", m.periodicFailures),
  ("frames_written", m.framesWritten),
  ("sink_errors", m.sinkErrors),
  ("resets_adopted", m.resetsAdopted)]

/-- The text that shows the counters. -/
def debugText (m : Metrics) : String :=
  let fields := m.fields.map fun (name, n) => s!"{name}: {n}"
  "MetricsSnapshot \x7b " ++ ", ".intercalate fields ++ " \x7d"

end Metrics

end PixelHost
