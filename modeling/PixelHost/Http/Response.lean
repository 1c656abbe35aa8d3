import PixelHost.Bytes
import PixelHost.Text.JsonText

/-!
# Responses

A response has a status, a kind of content and a body. It is written with a head that tells the
length of the body, and the connection is closed after it.

## Main definitions

* `Http.Response` — a response.
* `Http.Response.text`, `Http.Response.json` — responses with a text or a JSON text as the body.
* `Http.Response.bytes` — the bytes that are sent.
-/

namespace PixelHost.Http

/-- The kinds of content. -/
inductive ContentType where
  | text
  | json
  deriving DecidableEq, Repr, Inhabited

/-- The name of a kind of content. -/
def ContentType.name : ContentType → String
  | text => "text/plain; charset=utf-8"
  | json => "application/json"

/-- A response. -/
structure Response where
  status : UInt16
  contentType : ContentType
  body : Bytes

namespace Response

/-- A response with a text. -/
def text (status : UInt16) (body : String) : Response :=
  { status, contentType := .text, body := body.toUTF8 }

/-- A response with a JSON text. -/
def json (value : JsonValue) : Response :=
  { status := 200, contentType := .json, body := value.text.toUTF8 }

/-- The phrase for a status. -/
def reasonOf (status : UInt16) : String :=
  match status.toNat with
  | 200 => "OK"
  | 400 => "Bad Request"
  | 404 => "Not Found"
  | 405 => "Method Not Allowed"
  | 431 => "Request Header Fields Too Large"
  | 503 => "Service Unavailable"
  | _ => "Internal Server Error"

/-- The phrase for the status of a response. -/
def reason (r : Response) : String := reasonOf r.status

/-- The head of a response. -/
def head (r : Response) : String :=
  s!"HTTP/1.1 {r.status.toNat} {r.reason}\r\nContent-Type: {r.contentType.name}\r\n" ++
    s!"Content-Length: {r.body.size}\r\nConnection: close\r\n\r\n"

/-- The bytes that are sent. -/
def bytes (r : Response) : Bytes := r.head.toUTF8 ++ r.body

end Response

end PixelHost.Http
