import PixelHost.Engine.Session
import PixelHost.Http.Response
import PixelHost.Server.Metrics

/-!
# Upload connections

A connection on which messages arrive and replies leave. It is served in passes: a pass reads what
has arrived, and sends at most one of the replies that wait.

A message that is too long starts the closing of the connection. It may be found too long on its way
in, or by the session. Once closing, a connection only waits for the other side to agree; what still
arrives is thrown away.

## Main definitions

* `Incoming`, `Outgoing` — what arrives, and what is sent.
* `Upload` — the state of an upload connection.
* `Upload.serve` — a pass.
-/

namespace PixelHost

/-- What reading from an upload connection gives. -/
inductive Incoming where
  /-- A whole message. -/
  | message (data : Bytes)
  /-- Something that carries no message. -/
  | control
  /-- Nothing more has arrived. -/
  | nothing
  /-- A message that is longer than the connection takes. -/
  | tooLong
  /-- The connection was closed. -/
  | ended
  /-- The connection cannot be read. -/
  | failed

/-- How sending went. -/
inductive Departure where
  | done
  /-- It will be finished later. -/
  | blocked
  | failed
  deriving DecidableEq, Repr, Inhabited

/-- What is sent on a connection. -/
inductive Outgoing where
  | response (r : Http.Response)
  | reply (text : String)
  /-- The start of the closing of an upload connection. -/
  | close (code : Nat) (reason : String)

/-- The code for a message that is too long. -/
def Outgoing.sizeCode : Nat := 1009

/-- The code for a server that goes away. -/
def Outgoing.awayCode : Nat := 1001

/-- The state of an upload connection. -/
structure Upload where
  session : Session
  /-- How many of the dropped replies the server has counted. -/
  dropsCounted : Nat := 0
  /-- The closing of the connection has been started. -/
  closing : Bool := false

/-- What a pass may change besides the connection. -/
structure Serving (I : Interpreter) where
  engine : Engine I
  metrics : ServerMetrics
  /-- What was sent, the oldest first. -/
  sent : List Outgoing := []

namespace Serving

variable {I : Interpreter}

/-- Sends something. -/
def send (s : Serving I) (o : Outgoing) : Serving I := { s with sent := s.sent ++ [o] }

/-- Changes the counters. -/
def count (s : Serving I) (f : ServerMetrics → ServerMetrics) : Serving I :=
  { s with metrics := f s.metrics }

end Serving

namespace Upload

variable {I : Interpreter}

/-- A connection that has just been opened. -/
def start (maxUpload outboxDepth : Nat) : Upload := { session := .start maxUpload outboxDepth }

/-- Closes the connection because a message is too long. -/
def rejectOversize (u : Upload) (s : Serving I) : Upload × Serving I :=
  let s := s.count fun m => { m with oversizeClosed := m.oversizeClosed + 1 }
  ({ u with closing := true }, s.send (.close Outgoing.sizeCode "Upload too large"))

/-- Counts the replies that the session has dropped and that have not been counted. -/
def countDrops (u : Upload) (s : Serving I) : Upload × Serving I :=
  let dropped := u.session.outbox.dropped
  let new := dropped - u.dropsCounted
  ({ u with dropsCounted := max dropped u.dropsCounted },
    s.count fun m => { m with notificationsDropped := m.notificationsDropped + new })

/-- Hands a message to the session. A connection is out of the table while it is served, so it is
gone if the message is lost. -/
def takeMessage (u : Upload) (data : Bytes) (s : Serving I) : Option Upload × Serving I :=
  let (result, session, engine) := u.session.receive data true s.engine
  let u := { u with session }
  let s := { s with engine }
  match result with
  | .ok () =>
    let (u, s) := u.countDrops s
    (some u, s)
  | .error (.tooLarge _ _) =>
    let (u, s) := u.rejectOversize s
    (some u, s)
  | .error .closed => (some u, s)
  | .lost => (none, s)

/-- Where reading stopped. -/
inductive Reading where
  /-- Everything that has arrived is read. -/
  | upToDate (u : Upload)
  /-- The closing of the connection was started. -/
  | startedClosing (u : Upload)
  /-- There is no connection any more. -/
  | gone

/-- Reads what has arrived. -/
def read (u : Upload) (s : Serving I) : List Incoming → Reading × Serving I
  | [] | .nothing :: _ => (.upToDate u, s)
  | .ended :: _ | .failed :: _ => (.gone, s)
  | .control :: rest => u.read s rest
  | .tooLong :: _ =>
    let (u, s) := u.rejectOversize s
    (.startedClosing u, s)
  | .message data :: rest =>
    match u.takeMessage data s with
    | (none, s) => (.gone, s)
    | (some u, s) => if u.closing then (.startedClosing u, s) else u.read s rest

/-- Sends a reply if one waits. What was sent before must have left. -/
def write (u : Upload) (flush send : Departure) (s : Serving I) : Option Upload × Serving I :=
  match flush with
  | .blocked => (some u, s)
  | .failed => (none, s)
  | .done =>
    match u.session.nextReply with
    | (none, _) => (some u, s)
    | (some reply, session) =>
      if send = .failed then (none, s)
      else (some { u with session }, s.send (.reply reply))

/-- Reads what has arrived on a connection that closes, to no purpose. There is still a connection if
nothing says otherwise. -/
def drain : List Incoming → Bool
  | [] | .nothing :: _ => true
  | .message _ :: rest | .control :: rest => drain rest
  | _ :: _ => false

/-- A pass on a connection that closes. It does not wait forever. -/
def serveClosing (u : Upload) (arrived : List Incoming) (flush : Departure) (timedOut : Bool) :
    Option Upload :=
  if drain arrived && flush != .failed && !timedOut then some u else none

/-- A pass. -/
def serve (u : Upload) (arrived : List Incoming) (flush send : Departure) (timedOut : Bool)
    (s : Serving I) : Option Upload × Serving I :=
  if u.closing then (u.serveClosing arrived flush timedOut, s)
  else match u.read s arrived with
    | (.gone, s) => (none, s)
    | (.startedClosing u, s) => (some u, s)
    | (.upToDate u, s) => u.write flush send s

end Upload

end PixelHost
