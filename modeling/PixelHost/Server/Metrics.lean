/-!
# Counters of the server

Like those of the engine, the counters have no greatest value.

## Main definitions

* `ServerMetrics` — the counters.
-/

namespace PixelHost

/-- What the server counts. -/
structure ServerMetrics where
  /-- Upload connections that were opened. -/
  connectionsAccepted : Nat := 0
  /-- Connections that were turned away because there were too many. -/
  connectionsRefused : Nat := 0
  /-- Connections that were closed because a message was too long. -/
  oversizeClosed : Nat := 0
  /-- Replies that were dropped because too many waited. -/
  notificationsDropped : Nat := 0
  /-- Requests that were answered. -/
  httpRequests : Nat := 0
  deriving DecidableEq, Repr, Inhabited

/-- The counters by name. -/
def ServerMetrics.fields (m : ServerMetrics) : List (String × Nat) := [
  ("connections_accepted", m.connectionsAccepted),
  ("connections_refused", m.connectionsRefused),
  ("oversize_closed", m.oversizeClosed),
  ("notifications_dropped", m.notificationsDropped),
  ("http_requests", m.httpRequests)]

end PixelHost
