/-!
# Errors of scripts

What a client is told when a script is rejected or stops. The interpreter reports a failure with
layers around its cause: one for each function of the host, or each conversion, that it passed
through. The layers do not change what kind of failure it is, nor its text.

## Main definitions

* `Failure` — a failure of the interpreter.
* `ScriptError` — the error that a client is told.
* `ScriptError.ofFailure` — the error for a failure.
-/

namespace PixelHost

/-- A failure of the interpreter. -/
inductive Failure where
  /-- The source text is not a program. -/
  | syntaxError (message : String)
  | runtime (message : String)
  /-- There is not enough memory. -/
  | memory (message : String)
  /-- Any other cause, by its text. -/
  | other (text : String)
  /-- The failure passed through a function of the host. -/
  | inCallback (cause : Failure)
  /-- The failure passed through a conversion that says where it happened. -/
  | inContext (cause : Failure)
  deriving DecidableEq, Repr, Inhabited

namespace Failure

/-- The failure without its layers. -/
def root : Failure → Failure
  | inCallback cause | inContext cause => cause.root
  | failure => failure

/-- The failure, below its layers, is that there is not enough memory. -/
def isMemory : Failure → Bool
  | memory _ => true
  | inCallback cause | inContext cause => cause.isMemory
  | _ => false

/-- What follows the first place where `]:` stands. -/
def afterChunkName : List Char → Option (List Char)
  | ']' :: ':' :: rest => some rest
  | _ :: rest => afterChunkName rest
  | [] => none

/-- The text of a failure. A syntax error starts with the name of the chunk, which is left out. -/
def message : Failure → String
  | syntaxError message =>
    match afterChunkName message.toList with
    | some rest => String.ofList rest
    | none => message
  | runtime message | memory message => message
  | other text => text
  | inCallback cause | inContext cause => cause.message

end Failure

/-- The error that a client is told about a script. -/
inductive ScriptError where
  /-- The source text is not a program. -/
  | compile (message : String)
  /-- The script failed, or what it returned is not as it must be. -/
  | runtime (message : String)
  /-- The script needs more memory than it may take. -/
  | resourceExceeded (message : String)
  deriving DecidableEq, Repr, Inhabited

namespace ScriptError

/-- The text without the kind of the error. -/
def message : ScriptError → String
  | compile message | runtime message | resourceExceeded message => message

/-- The text with the kind of the error. -/
def text : ScriptError → String
  | compile message => s!"Compile error: {message}"
  | runtime message => s!"Runtime error: {message}"
  | resourceExceeded message => s!"Resource exceeded: {message}"

/-- The error for a failure of the interpreter. -/
def ofFailure (failure : Failure) : ScriptError :=
  if failure.isMemory then resourceExceeded s!"memory limit exceeded: {failure.message}"
  else match failure with
    | .syntaxError _ => compile failure.message
    | _ => runtime failure.message

/-- The error for a failure to load a source text, which is never a failure of the run. -/
def ofLoading (failure : Failure) : ScriptError :=
  match ofFailure failure with
  | runtime message => compile message
  | error => error

end ScriptError

end PixelHost
