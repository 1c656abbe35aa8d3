import PixelHost.Bytes
import PixelHost.Text.Blank
import PixelHost.Text.Utf8

/-!
# Request heads

A request starts with a head: a line with method, path and version, then header lines, then a blank
line. Only the head is read.

## Main definitions

* `Http.headLength?` — the length of the head at the start of some bytes.
* `Http.Request` — what is read off a head.
* `Http.Request.parse?` — reads a head.
-/

namespace PixelHost.Http

/-- The largest head that is accepted. -/
def maxHeadLength : Nat := 8 * 1024

/-- The position after the first blank line, counted from `n` on. -/
def headEndFrom (n : Nat) : List UInt8 → Option Nat
  | 13 :: 10 :: 13 :: 10 :: _ => some (n + 4)
  | _ :: rest => headEndFrom (n + 1) rest
  | [] => none

/-- The length of the head with its blank line, if the head is complete. -/
def headLength? (bytes : Bytes) : Option Nat := headEndFrom 0 bytes.data.toList

/-- What is read off a head. -/
structure Request where
  method : String
  path : String
  /-- The connection is to become a WebSocket. -/
  upgrade : Bool
  deriving DecidableEq, Repr, Inhabited

/-- The first line of a text and the lines after it. Lines end with a carriage return and a line
feed. `line` holds the characters of the line so far, the last one first. -/
def linesFrom (line : List Char) : List Char → List (List Char)
  | '\r' :: '\n' :: rest => line.reverse :: linesFrom [] rest
  | c :: rest => linesFrom (c :: line) rest
  | [] => [line.reverse]

/-- The lines of a text. -/
def lines (s : List Char) : List (List Char) := linesFrom [] s

/-- The text without case. -/
def lowercase (s : List Char) : List Char := s.map Char.toLower

/-- The name and the value of a header line. -/
def splitHeader? (line : List Char) : Option (List Char × List Char) :=
  match line.span (· != ':') with
  | (name, _ :: value) => some (name, value)
  | (_, []) => none

/-- A header line asks for a WebSocket. -/
def asksForUpgrade (line : List Char) : Bool :=
  match splitHeader? line with
  | some (name, value) =>
    lowercase (Blank.trim name) == "upgrade".toList &&
      lowercase (Blank.trim value) == "websocket".toList
  | none => false

namespace Request

/-- Reads the text of a head. -/
def ofText? (text : List Char) : Option Request :=
  match lines text with
  | [] => none
  | first :: headers =>
    match Blank.words first with
    | method :: path :: version :: _ =>
      if "HTTP/".toList.isPrefixOf version then
        some { method := .ofList method, path := .ofList path, upgrade := headers.any asksForUpgrade }
      else none
    | _ => none

/-- Reads a head. -/
def parse? (head : Bytes) : Option Request :=
  (Utf8.decode? head).bind fun text => ofText? text.toList

end Request

end PixelHost.Http
