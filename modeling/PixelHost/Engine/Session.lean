import PixelHost.Engine.Basic
import PixelHost.Text.Utf8

/-!
# Upload sessions

A client sends messages in chunks. The chunks of a message are collected until the last one; the
whole message is then submitted to the engine as a script, and a reply is queued. A message that
grows beyond a limit ends the session, and nothing of it is compiled. Where the upload is lost there
is no reply.

## Main definitions

* `Outbox` — replies that wait to be sent, a bounded number of them.
* `Session` — the state of an upload session.
* `Session.receive` — takes a chunk.
-/

namespace PixelHost

/-! ### Replies that wait -/

/-- Replies that wait to be sent, the oldest first. When there is no room a new one is dropped. -/
structure Outbox where
  capacity : Nat
  queue : List String := []
  /-- The number of replies that were dropped, without a greatest one. -/
  dropped : Nat := 0
  deriving DecidableEq, Repr, Inhabited

namespace Outbox

/-- Queues a reply. Gives whether there was room. -/
def push (o : Outbox) (reply : String) : Bool × Outbox :=
  if o.queue.length ≥ o.capacity then (false, { o with dropped := o.dropped + 1 })
  else (true, { o with queue := o.queue ++ [reply] })

/-- Takes the oldest reply. -/
def pop (o : Outbox) : Option String × Outbox :=
  match o.queue with
  | [] => (none, o)
  | reply :: rest => (some reply, { o with queue := rest })

/-- The number of replies that wait. -/
def size (o : Outbox) : Nat := o.queue.length

/-- No reply waits. -/
def isEmpty (o : Outbox) : Bool := o.queue.isEmpty

end Outbox

/-! ### Sessions -/

/-- Why a session takes no chunk. -/
inductive UploadError where
  /-- The message would be longer than the limit. -/
  | tooLarge (limit attempted : Nat)
  /-- The session has ended. -/
  | closed
  deriving DecidableEq, Repr, Inhabited

/-- The text of an error. -/
def UploadError.text : UploadError → String
  | tooLarge limit attempted => s!"Upload too large: {attempted} bytes (limit {limit})"
  | closed => "Upload session closed"

/-- The state of an upload session. -/
structure Session where
  maxUpload : Nat
  outbox : Outbox
  /-- The chunks of the current message. -/
  buffer : Bytes := .empty
  closed : Bool := false

namespace Session

/-- A new session. -/
def start (maxUpload outboxDepth : Nat) : Session :=
  { maxUpload, outbox := { capacity := outboxDepth } }

/-- The reply to an upload that was published. -/
def accepted : String := "Accepted"

/-- The error of a message that is no text. -/
def notText (message : Bytes) : ScriptError :=
  .compile s!"source is not valid UTF-8: {Utf8.faultText message}"

variable {I : Interpreter}

/-- The reply to a whole message, which is submitted to the engine if it is a text. There is none if
the upload is lost. -/
def reply (message : Bytes) (e : Engine I) : Option String × Engine I :=
  match Utf8.decode? message with
  | none => (some (notText message).text, e)
  | some source =>
    match e.submit source with
    | (.ok _, e) => (some accepted, e)
    | (.error error, e) => (some error.text, e)
    | (.lost, e) => (none, e)

/-- Takes a chunk of a message. The last one completes it. Its chunks are given away before it is
submitted. -/
def receive (s : Session) (chunk : Bytes) (isLast : Bool) (e : Engine I) :
    Ending UploadError Unit × Session × Engine I :=
  let attempted := s.buffer.size + chunk.size
  if s.closed then (.error .closed, s, e)
  else if attempted > s.maxUpload then
    (.error (.tooLarge s.maxUpload attempted), { s with closed := true, buffer := .empty }, e)
  else if isLast then
    match reply (s.buffer ++ chunk) e with
    | (some reply, e) =>
      (.ok (), { s with buffer := .empty, outbox := (s.outbox.push reply).2 }, e)
    | (none, e) => (.lost, { s with buffer := .empty }, e)
  else (.ok (), { s with buffer := s.buffer ++ chunk }, e)

/-- Takes the oldest reply. -/
def nextReply (s : Session) : Option String × Session :=
  let (reply, outbox) := s.outbox.pop
  (reply, { s with outbox })

/-- A reply waits. -/
def hasReply (s : Session) : Bool := !s.outbox.isEmpty

end Session

end PixelHost
