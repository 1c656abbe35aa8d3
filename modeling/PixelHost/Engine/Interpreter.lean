import PixelHost.Bytes
import PixelHost.Delay

/-!
# Interpreters

What the engine needs of an interpreter for scripts. A script is compiled once and then invoked with
a counter and with the value that its last invocation handed on; it gives a frame, a delay and the
value for the next invocation.

A script can take its host along. It may never come to an end, and it may make the host break off what
it does. Such a call is lost: whoever made it is not told anything and does not go on either, and what
the call would have brought about afterwards does not happen.

## Main definitions

* `Ending` — how a call ends.
* `Outcome` — what a successful invocation gives.
* `Interpreter` — compiling and invoking.
* `Script`, `Program` — a compiled source text, and one with the value it handed on.
-/

namespace PixelHost

/-- How a call ends that depends on a script. -/
inductive Ending (ε α : Type) where
  | ok (a : α)
  | error (e : ε)
  /-- It never ends, or the host breaks it off. Nobody gets an answer. -/
  | lost
  deriving DecidableEq, Repr, Inhabited

namespace Ending

variable {ε α : Type}

/-- A call that cannot be lost. -/
def ofExcept : Except ε α → Ending ε α
  | .ok a => .ok a
  | .error e => .error e

/-- A call whose error is worded otherwise. -/
def mapError {ε' : Type} (f : ε → ε') : Ending ε α → Ending ε' α
  | .ok a => .ok a
  | .error e => .error (f e)
  | .lost => .lost

/-- A call without a result. Where there is no error to report, it is lost. -/
def failing : Option ε → Ending ε α
  | some e => .error e
  | none => .lost

/-- The result of a call. -/
def toOption : Ending ε α → Option α
  | .ok a => some a
  | .error _ | .lost => none

end Ending

/-- What a successful invocation gives: the color bytes of a frame, the delay until the next
invocation, and the value that is handed on to it. -/
structure Outcome (Memo : Type) where
  frame : Bytes
  delay : Delay
  memo : Option Memo

/-- What must be kept while an interpreter works: chunks that may be invoked again and values that
may be handed on. -/
structure InUse (Chunk Memo : Type) where
  chunks : List Chunk := []
  memos : List Memo := []

/-- An interpreter for scripts. -/
structure Interpreter where
  /-- The state of the interpreter. -/
  State : Type
  /-- A compiled source text. -/
  Chunk : Type
  /-- A value that an invocation hands on. -/
  Memo : Type
  /-- The name of the type of a value. -/
  memoType : Memo → String
  compile : InUse Chunk Memo → (source : String) → State → Ending ScriptError Chunk × State
  execute : InUse Chunk Memo → Chunk → (counter : UInt32) → Option Memo → State →
    Ending ScriptError (Outcome Memo) × State

/-- A compiled source text with the text itself. -/
structure Script (I : Interpreter) where
  source : String
  chunk : I.Chunk

namespace Script

variable {I : Interpreter}

/-- The length of the source text in bytes. -/
def size (s : Script I) : Nat := s.source.utf8ByteSize

/-- The text that shows a script to developers. -/
def debugText (s : Script I) : String := s!"Script \x7b len: {s.size} \x7d"

end Script

/-- A script with the value that its last invocation handed on. -/
structure Program (I : Interpreter) where
  script : Script I
  memo : Option I.Memo

namespace Program

variable {I : Interpreter}

/-- The text that shows a value that is handed on to developers. -/
def memoText (m : I.Memo) : String := s!"OpaqueState({I.memoType m})"

/-- The text that shows a program to developers. -/
def debugText (p : Program I) : String :=
  let memo := match p.memo with
    | some m => s!"Some({memoText m})"
    | none => "None"
  s!"Program \x7b len: {p.script.size}, state: {memo} \x7d"

/-- What must be kept for a program. -/
def inUse (p : Program I) : InUse I.Chunk I.Memo := ⟨[p.script.chunk], p.memo.toList⟩

end Program

end PixelHost
