import PixelHost.Http.Request
import PixelHost.Text.Base64
import PixelHost.WebSocket.Digest

/-!
# The handshake of a WebSocket

A request for a WebSocket has a key, which the answer proves to have seen: it carries the digest of
the key with a fixed text.

## Main definitions

* `WebSocket.acceptKey` — what the answer carries.
* `WebSocket.answerTo?` — the answer to a request.
-/

namespace PixelHost.WebSocket

open Http

/-- The text that is put after the key. -/
def keySuffix : String := "258EAFA5-E914-47DA-95CA-C5AB0DC85B11"

/-- What the answer to a key carries. -/
def acceptKey (key : String) : String := Base64.encode (digest (key ++ keySuffix).toUTF8)

/-- A header line: its name without case, and its value. -/
abbrev HeaderLine := List Char × List Char

/-- The header lines of a head. -/
def headerLines (head : List Char) : List HeaderLine :=
  ((lines head).drop 1).filterMap fun line =>
    (splitHeader? line).map fun (name, value) => (lowercase name, Blank.trim value)

/-- The first value of a header. -/
def header? (headers : List HeaderLine) (name : String) : Option (List Char) :=
  headers.lookup name.toList

/-- The character separates the parts of a list in a header. -/
def isSeparator (c : Char) : Bool := c == ' ' || c == ','

/-- The parts of a list in a header. -/
def parts (value : List Char) : List (List Char) :=
  (value.splitBy fun a b => isSeparator a == isSeparator b).filter fun p => !p.all isSeparator

/-- The version of the protocol that is spoken. -/
def protocolVersion : String := "13"

/-- The key of a request, if it asks for a WebSocket in the way it has to. -/
def keyOf? (head : List Char) : Option String := do
  let first ← (lines head).head?
  match Blank.words first with
  | [method, _, version] =>
    guard (method = "GET".toList && version = "HTTP/1.1".toList)
  | _ => none
  let headers := headerLines head
  let connection ← header? headers "connection"
  guard ((parts connection).any fun p => lowercase p = "upgrade".toList)
  guard (lowercase (← header? headers "upgrade") = "websocket".toList)
  guard ((← header? headers "sec-websocket-version") = protocolVersion.toList)
  return String.ofList (← header? headers "sec-websocket-key")

/-- The head of the answer to a key. -/
def answerTo (key : String) : String :=
  "HTTP/1.1 101 Switching Protocols\r\nconnection: Upgrade\r\nupgrade: websocket\r\n" ++
    s!"sec-websocket-accept: {acceptKey key}\r\n\r\n"

/-- The answer to the head of a request, if it can be answered. -/
def answerTo? (head : Bytes) : Option Bytes := do
  let text ← Utf8.decode? head
  return (answerTo (← keyOf? text.toList)).toUTF8

end PixelHost.WebSocket
