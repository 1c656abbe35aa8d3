import PixelHost.Engine.Basic
import PixelHost.Http.Listing
import PixelHost.Http.Response
import PixelHost.Server.Metrics

/-!
# Status endpoints

Three endpoints under a mount path tell about the engine: the source text of the program, the names
of the examples, and the counters. They can only be read.

## Main definitions

* `Http.StatusContext` — what the endpoints tell about.
* `Http.Endpoint.ofPath?` — the endpoint that a path leads to.
* `Http.route` — the answer to a request.
-/

namespace PixelHost.Http

/-- What the endpoints tell about. -/
structure StatusContext (I : Interpreter) where
  engine : Engine I
  /-- The names of the examples. -/
  examples : Except FileError (List String)
  /-- The number of open upload connections. -/
  connections : Nat
  metrics : ServerMetrics

/-- The endpoints. -/
inductive Endpoint where
  | code
  | examples
  | status
  deriving DecidableEq, Repr, Inhabited

namespace Endpoint

/-- The endpoint with a name. -/
def ofName? (name : List Char) : Option Endpoint :=
  if name = "code".toList then some code
  else if name = "examples".toList then some examples
  else if name = "status".toList then some status
  else none

/-- A path up to its query or fragment. -/
def withoutQuery (path : List Char) : List Char := path.takeWhile fun c => c != '?' && c != '#'

/-- A mount path without the slashes at its end. -/
def mountBase (mount : List Char) : List Char := (mount.reverse.dropWhile (· == '/')).reverse

/-- What follows a text at the start of another one. -/
def after? (start : List Char) (s : List Char) : Option (List Char) :=
  if start.isPrefixOf s then some (s.drop start.length) else none

/-- The endpoint that a path leads to: the mount path, a slash and its name. -/
def ofPath? (mount path : String) : Option Endpoint := do
  let rest ← after? (mountBase mount.toList) (withoutQuery path.toList)
  ofName? (← after? ['/'] rest)

end Endpoint

variable {I : Interpreter}

/-- Counters as a JSON object. -/
def counters (fields : List (String × Nat)) : JsonValue :=
  .object (fields.map fun (name, n) => (name, .int n))

/-- The content of the status endpoint. -/
def statusValue (ctx : StatusContext I) : JsonValue :=
  let length := ctx.engine.source?.map (·.utf8ByteSize)
  .object [
    ("running", .bool length.isSome),
    ("source_len", .int (length.getD 0 : Nat)),
    ("connections", .int ctx.connections),
    ("engine", counters ctx.engine.metrics.fields),
    ("server", counters ctx.metrics.fields)]

/-- The content of an endpoint. -/
def serve (ctx : StatusContext I) : Endpoint → Response
  | .code => .text 200 (ctx.engine.source?.getD "")
  | .examples =>
    match ctx.examples with
    | .ok names => .text 200 ("\n".intercalate names)
    | .error _ => .text 404 "examples directory not found"
  | .status => .json (statusValue ctx)

/-- The answer to a request. -/
def route (method path mount : String) (ctx : StatusContext I) : Response :=
  match Endpoint.ofPath? mount path with
  | none => .text 404 "Not Found"
  | some endpoint =>
    if method = "GET" then serve ctx endpoint else .text 405 "Method Not Allowed"

end PixelHost.Http
