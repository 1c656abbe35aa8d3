import PixelHost.Server.Upload
import PixelHost.WebSocket.Frame

/-!
# A WebSocket of the server

Turns the bytes of an upload connection into messages. A message may come in several frames, with
frames that control the connection in between: a ping is answered, and a frame that closes the
connection is answered with the same reason.

A client that breaks the rules is given up without a word. These are the rules: its frames have
masks, are of a known kind, and have no bits without a meaning; frames that control the connection
are short and stand alone; the frames of two messages do not mix; texts are UTF-8.

## Main definitions

* `WebSocket.Socket` — what has arrived and what is to be sent.
* `WebSocket.Socket.next` — what the bytes that have arrived give next.
* `WebSocket.Socket.transmit` — queues what is sent.
-/

namespace PixelHost.WebSocket

/-- How far the closing of a connection has come. -/
inductive ClosePhase where
  | active
  /-- The server has started it. -/
  | startedHere
  /-- The client has started it, and it was answered. -/
  | answered
  /-- The client has answered. -/
  | acknowledged
  deriving DecidableEq, Repr, Inhabited

/-- What has arrived and what is to be sent. -/
structure Socket where
  /-- The greatest length of a message. -/
  limit : Nat
  /-- The bytes that have arrived and have not been looked at. -/
  unread : Bytes := .empty
  /-- No further bytes will arrive. -/
  ended : Bool := false
  /-- The part of a message that has arrived, and whether it is a text. -/
  partialMessage : Option (Bool × Bytes) := none
  phase : ClosePhase := .active
  /-- The bytes that are to be sent. -/
  unsent : Bytes := .empty

namespace Socket

/-- Bytes have arrived. -/
def arrive (s : Socket) (bytes : Bytes) : Socket := { s with unread := s.unread ++ bytes }

/-- A frame is to be sent. -/
def queue (s : Socket) (f : Frame) : Socket := { s with unsent := s.unsent ++ f.bytes }

/-- The codes that a client may close a connection with. -/
def isAllowedCode (code : Nat) : Bool :=
  1000 ≤ code && code ≤ 1003 || 1007 ≤ code && code ≤ 1013 || 3000 ≤ code && code ≤ 4999

/-- The code for a client that breaks the rules. -/
def violationCode : Nat := 1002

/-- The reason for which a client closes a connection; fails if it is not well formed. -/
def closeReason? (payload : Bytes) : Option (Option (Nat × String)) :=
  if payload.size = 0 then some none
  else if payload.size = 1 then none
  else
    let code := Frame.numberAt payload 0 2
    (Utf8.decode? (payload.extract 2 payload.size)).map fun text => some (code, text)

/-- The reason with which a closing is answered. -/
def answerReason : Option (Nat × String) → Option (Nat × String)
  | some (code, text) =>
    if isAllowedCode code then some (code, text) else some (violationCode, "Protocol violation")
  | none => none

/-- The client closes the connection, or answers that it is closed. -/
def takeClose (s : Socket) (payload : Bytes) : Incoming × Socket :=
  match closeReason? payload, s.phase with
  | none, _ => (.failed, s)
  | some reason, .active =>
    (.control, { s.queue (.closing (answerReason reason)) with phase := .answered })
  | some _, .startedHere => (.control, { s with phase := .acknowledged })
  | some _, _ => (.control, s)

/-- A frame that controls the connection. -/
def takeControl (s : Socket) (f : Frame) : Incoming × Socket :=
  if !f.isFinal || f.payload.size > 125 then (.failed, s)
  else match f.opcode with
    | .close => s.takeClose f.payload
    | .ping =>
      if s.phase = .active then (.control, s.queue { opcode := .pong, payload := f.payload })
      else (.control, s)
    | _ => (.control, s)

/-- The bytes of a text are UTF-8 so far. -/
def isTextSoFar (bytes : Bytes) : Bool :=
  match Utf8.firstFault? bytes with
  | some (_, .invalid _) => false
  | _ => true

/-- A frame with a part of a message, the part before it included. -/
def takePart (s : Socket) (isText isFinal : Bool) (data : Bytes) : Incoming × Socket :=
  if data.size > s.limit then (.tooLong, s)
  else if isText && !isTextSoFar data then (.failed, s)
  else if !isFinal then (.control, { s with partialMessage := some (isText, data) })
  else if isText && (Utf8.decode? data).isNone then (.failed, s)
  else (.message data, { s with partialMessage := none })

/-- A frame. -/
def takeFrame (s : Socket) (f : Frame) : Incoming × Socket :=
  if f.hasReservedBits || !f.isMasked then (.failed, s)
  else if f.opcode.isControl then s.takeControl f
  else match f.opcode, s.partialMessage with
    | .continuation, some (isText, data) => s.takePart isText f.isFinal (data ++ f.payload)
    | .continuation, none => (.failed, s)
    | _, some _ => (.failed, s)
    | opcode, none => s.takePart (opcode = .text) f.isFinal f.payload

/-- What the bytes that have arrived give next. -/
def next (s : Socket) : Incoming × Socket :=
  match s.phase with
  | .answered | .acknowledged => (.ended, s)
  | _ =>
    match Frame.split s.limit s.unread with
    | .incomplete => (if s.ended then .failed else .nothing, s)
    | .unknownKind => (.failed, s)
    | .tooLong => (.tooLong, s)
    | .frame f length =>
      { s with unread := s.unread.extract length s.unread.size }.takeFrame f

/-- Everything that the bytes that have arrived give, at most `n` things. Reading ends where there is
nothing more to read, and at a message that is as long as one can be: whoever takes it may close the
connection, and what comes after it must not be looked at before that. -/
def readUpTo (s : Socket) : Nat → List Incoming × Socket
  | 0 => ([], s)
  | n + 1 =>
    match s.next with
    | (.message data, s) =>
      if data.size ≥ s.limit then ([.message data], s)
      else
        let (rest, s) := s.readUpTo n
        (.message data :: rest, s)
    | (.control, s) =>
      let (rest, s) := s.readUpTo n
      (.control :: rest, s)
    | (last, s) => ([last], s)

/-- Everything that the bytes that have arrived give. -/
def readAll (s : Socket) : List Incoming × Socket := s.readUpTo (s.unread.size + 2)

/-- Queues what is sent on the connection. -/
def transmit (s : Socket) : Outgoing → Socket
  | .reply text => s.queue { opcode := .text, payload := text.toUTF8 }
  | .close code reason =>
    if s.phase = .active then
      { s.queue (.closing (some (code, reason))) with phase := .startedHere }
    else s
  | .response r => { s with unsent := s.unsent ++ r.bytes }

end Socket

end PixelHost.WebSocket
