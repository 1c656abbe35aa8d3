import PixelHost.Http.Request
import PixelHost.Http.Route
import PixelHost.Server.Upload

/-!
# The reactor

One thread serves all connections on one port, in passes. A pass registers the connections that have
come in, and then serves every connection once. What the sockets answer meanwhile comes from
outside.

A connection starts as pending, until the head of its request is complete. The head decides what
becomes of it: a request for a WebSocket makes it an upload connection, after a handshake; any other
request is answered, and the connection ends.

## Main definitions

* `Connection` — the state of a connection.
* `Happening` — what the socket of a connection answers in a pass.
* `Reactor` — the connections with the engine and the counters.
* `Reactor.accept`, `Reactor.serve`, `Reactor.pass` — registering, serving, and a whole pass.
* `Reactor.shutdown` — the end.
-/

namespace PixelHost

/-- The bounds of a server, and where its endpoints are. -/
structure ServerConfig where
  /-- The number of upload connections at a time. -/
  maxClients : Nat := 8
  /-- The greatest length of an upload in bytes. -/
  maxUpload : Nat := 1048576
  /-- The number of replies that may wait in a connection. -/
  outboxDepth : Nat := 20
  /-- The path below which the endpoints are. -/
  mount : String := "/"
  deriving DecidableEq, Repr, Inhabited

/-- The longest message that a connection takes. It is one byte longer than an upload may be, so that
the session sees an upload that is too long by one byte. -/
def ServerConfig.messageLimit (c : ServerConfig) : Nat := c.maxUpload + 1

/-- The state of a connection. -/
inductive Connection where
  /-- The head of its request is not complete. -/
  | pending
  /-- The answer to its request for a WebSocket is being sent. -/
  | handshaking
  | upload (u : Upload)

/-- The connection counts as an upload connection. -/
def Connection.isUpload : Connection → Bool
  | pending => false
  | handshaking | upload _ => true

/-! ### What comes from outside -/

/-- What can be seen at the front of a pending connection. -/
inductive Peek where
  /-- Nothing has arrived. -/
  | nothing
  /-- These bytes, and no more than a head may have. -/
  | bytes (front : Bytes)
  /-- The other side has ended the connection. -/
  | ended
  | failed

/-- How a handshake went. -/
inductive Handshake where
  | done
  /-- It goes on later. -/
  | interrupted
  | failed
  deriving DecidableEq, Repr, Inhabited

/-- What the socket of a connection answers in a pass. -/
structure Happening where
  peek : Peek := .nothing
  /-- The head of a plain request can be taken off the connection. -/
  headTaken : Bool := true
  handshake : Handshake := .done
  arrived : List Incoming := []
  flush : Departure := .done
  send : Departure := .done
  /-- The connection has waited too long. -/
  timedOut : Bool := false
  /-- The names of the examples. -/
  examples : Except FileError (List String) := .ok []

/-! ### The reactor -/

/-- The connections with the engine and the counters. -/
structure Reactor (I : Interpreter) where
  config : ServerConfig
  engine : Engine I
  metrics : ServerMetrics := {}
  connections : List (Nat × Connection) := []
  /-- The number of the next connection. -/
  nextId : Nat := 1

namespace Reactor

variable {I : Interpreter}

/-- The largest number of pending connections. -/
def maxPending : Nat := 64

/-- The number of upload connections. -/
def connectionCount (r : Reactor I) : Nat := r.connections.countP (·.2.isUpload)

/-- The number of pending connections. -/
def pendingCount (r : Reactor I) : Nat := r.connections.length - r.connectionCount

/-- Counts a connection that is turned away. -/
def refuse (m : ServerMetrics) : ServerMetrics :=
  { m with connectionsRefused := m.connectionsRefused + 1 }

/-- Registers a connection that has come in. Gives its number, unless it is turned away or of no
use. -/
def accept (r : Reactor I) (usable : Bool) : Option Nat × Reactor I :=
  if r.pendingCount ≥ maxPending then (none, { r with metrics := refuse r.metrics })
  else if !usable then (none, r)
  else (some r.nextId, { r with
    connections := (r.nextId, .pending) :: r.connections
    nextId := r.nextId + 1 })

/-! ### Serving a connection

The connection that is served is not among the connections of the reactor meanwhile. -/

/-- Answers a request and ends the connection. -/
def respond (response : Http.Response) (s : Serving I) : Option Connection × Serving I :=
  (none, s.send (.response response))

/-- A pass on a connection whose handshake goes on. -/
def serveHandshake (r : Reactor I) (h : Happening) (s : Serving I) :
    Option Connection × Serving I :=
  match h.handshake with
  | .done =>
    let s := s.count fun m => { m with connectionsAccepted := m.connectionsAccepted + 1 }
    (some (.upload (.start r.config.maxUpload r.config.outboxDepth)), s)
  | .interrupted => (if h.timedOut then none else some .handshaking, s)
  | .failed => (none, s)

/-- What becomes of a connection with a complete head. -/
def classify (r : Reactor I) (head : Bytes) (h : Happening) (s : Serving I) :
    Option Connection × Serving I :=
  match Http.Request.parse? head with
  | none => respond (.text 400 "Bad Request") s
  | some request =>
    if request.upgrade then
      if r.connectionCount ≥ r.config.maxClients then
        respond (.text 503 "Too many connections") (s.count refuse)
      else r.serveHandshake h s
    else if !h.headTaken then (none, s)
    else
      let s := s.count fun m => { m with httpRequests := m.httpRequests + 1 }
      respond (Http.route request.method request.path r.config.mount {
        engine := s.engine
        examples := h.examples
        connections := r.connectionCount
        metrics := s.metrics }) s

/-- A pass on a pending connection. -/
def servePending (r : Reactor I) (h : Happening) (s : Serving I) : Option Connection × Serving I :=
  let waiting := if h.timedOut then none else some Connection.pending
  match h.peek with
  | .ended | .failed => (none, s)
  | .nothing => (waiting, s)
  | .bytes front =>
    match Http.headLength? front with
    | some length => r.classify (front.extract 0 length) h s
    | none =>
      if front.size ≥ Http.maxHeadLength then respond (.text 431 "Request head too large") s
      else (waiting, s)

/-- A pass on a connection. -/
def serveConnection (r : Reactor I) (c : Connection) (h : Happening) (s : Serving I) :
    Option Connection × Serving I :=
  match c with
  | .pending => r.servePending h s
  | .handshaking => r.serveHandshake h s
  | .upload u =>
    let (u, s) := u.serve h.arrived h.flush h.send h.timedOut s
    (u.map .upload, s)

/-- Serves the connection with a number. Gives what is sent on it. -/
def serve (r : Reactor I) (id : Nat) (h : Happening) : List Outgoing × Reactor I :=
  match r.connections.lookup id with
  | none => ([], r)
  | some c =>
    let others := r.connections.filter (·.1 != id)
    let r := { r with connections := others }
    let (next, s) := r.serveConnection c h { engine := r.engine, metrics := r.metrics }
    let connections := match next with
      | some c => (id, c) :: others
      | none => others
    (s.sent, { r with engine := s.engine, metrics := s.metrics, connections })

/-! ### Passes -/

/-- Serves connections in an order. Gives what is sent, and on which connection. -/
def serveAll (r : Reactor I) : List (Nat × Happening) → List (Nat × Outgoing) × Reactor I
  | [] => ([], r)
  | (id, h) :: rest =>
    let (sent, r) := r.serve id h
    let (more, r) := r.serveAll rest
    (sent.map (id, ·) ++ more, r)

/-- Registers connections. -/
def acceptAll (r : Reactor I) (usable : List Bool) : Reactor I :=
  usable.foldl (fun r usable => (r.accept usable).2) r

/-- A pass: connections come in, and connections are served. -/
def pass (r : Reactor I) (usable : List Bool) (visits : List (Nat × Happening)) :
    List (Nat × Outgoing) × Reactor I :=
  (r.acceptAll usable).serveAll visits

/-- Ends all connections. The upload connections that are not closing are told. -/
def shutdown (r : Reactor I) : List (Nat × Outgoing) × Reactor I :=
  let sent := r.connections.filterMap fun (id, c) =>
    match c with
    | .upload u =>
      if u.closing then none
      else some (id, Outgoing.close Outgoing.awayCode "Server shutting down")
    | _ => none
  (sent, { r with connections := [] })

end Reactor

end PixelHost
