import PixelHost.Server.Reactor
import PixelHost.WebSocket.Handshake
import PixelHost.WebSocket.Socket

/-!
# Connections as bytes

Ties the reactor to the bytes that go over its connections: what has arrived on a connection is turned
into what the reactor asks its socket, and what the reactor sends is turned into bytes.

## Main definitions

* `Wire` — the bytes of a connection.
* `Wire.happening` — what the bytes that have arrived mean to the reactor.
* `Reactor.serveWire` — a pass on a connection.
-/

namespace PixelHost

/-- The bytes of a connection. -/
structure Wire where
  /-- What has arrived of a request that is not complete. -/
  arrived : Bytes := .empty
  /-- Nothing further will arrive. -/
  ended : Bool := false
  /-- The WebSocket that the connection has become. -/
  socket : Option WebSocket.Socket := none
  /-- What is to be sent. -/
  unsent : Bytes := .empty

namespace Wire

/-- Bytes have arrived. -/
def receive (w : Wire) (bytes : Bytes) : Wire :=
  match w.socket with
  | some s => { w with socket := some (s.arrive bytes) }
  | none => { w with arrived := w.arrived ++ bytes }

/-- Nothing further will arrive. -/
def finish (w : Wire) : Wire :=
  { w with ended := true, socket := w.socket.map fun s => { s with ended := true } }

/-- The answer to a request for a WebSocket. Nothing may have arrived after the request. -/
def handshakeAnswer? (w : Wire) : Option Bytes :=
  if Http.headLength? w.arrived = some w.arrived.size then WebSocket.answerTo? w.arrived else none

/-- What can be seen at the front. -/
def peek (w : Wire) : Peek :=
  if w.arrived.size > 0 then .bytes (w.arrived.extract 0 Http.maxHeadLength)
  else if w.ended then .ended
  else .nothing

/-- What the bytes that have arrived mean to the reactor. -/
def happening (w : Wire) (timedOut : Bool) (examples : Except FileError (List String)) :
    Happening × Wire :=
  match w.socket with
  | some s =>
    let (arrived, s) := s.readAll
    ({ arrived, timedOut, examples }, { w with socket := some s })
  | none =>
    let handshake := if w.handshakeAnswer?.isSome then .done else .failed
    ({ peek := w.peek, handshake, timedOut, examples }, w)

/-- The connection has become a WebSocket. -/
def upgrade (w : Wire) (limit : Nat) : Wire :=
  { w with
    unsent := w.unsent ++ w.handshakeAnswer?.getD .empty
    socket := some { limit, ended := w.ended }
    arrived := .empty }

/-- Something is sent. -/
def transmit (w : Wire) (o : Outgoing) : Wire :=
  match w.socket, o with
  | some s, o => { w with socket := some (s.transmit o) }
  | none, .response r => { w with unsent := w.unsent ++ r.bytes }
  | none, _ => w

/-- Takes what is to be sent. -/
def takeUnsent (w : Wire) : Bytes × Wire :=
  match w.socket with
  | some s => (w.unsent ++ s.unsent,
      { w with unsent := .empty, socket := some { s with unsent := .empty } })
  | none => (w.unsent, { w with unsent := .empty })

end Wire

/-- A pass on a connection with its bytes. -/
def Reactor.serveWire {I : Interpreter} (r : Reactor I) (id : Nat) (w : Wire) (timedOut : Bool)
    (examples : Except FileError (List String)) : Wire × Reactor I :=
  let (h, w) := w.happening timedOut examples
  let (sent, r) := r.serve id h
  let w := match r.connections.lookup id, w.socket with
    | some (.upload _), none => w.upgrade r.config.messageLimit
    | _, _ => w
  (sent.foldl Wire.transmit w, r)

end PixelHost
