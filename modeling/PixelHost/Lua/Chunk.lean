import PixelHost.Lua.Statement

/-!
# Chunks

A chunk is a source text as a whole: the body of a function with any number of arguments whose only
captured variable is the environment. A chunk that begins with an escape character claims to be
compiled already; such chunks are refused with what is wrong with their header.

## Main definitions

* `Lua.Reader.ofDepth` — reading down to a depth of nesting.
* `Lua.Chunk.compile` — the function of a source text, or the message of its first error.
-/

namespace PixelHost.Lua

/-- Reads phrases down to a depth of nesting. -/
def Reader.ofDepth : Nat → Reader
  | 0 => {
    statement := Compile.failPlain .nestedTooDeep
    subexpression := fun _ => Compile.failPlain .nestedTooDeep
    restOfAssignment := fun _ => Compile.failPlain .nestedTooDeep }
  | n + 1 =>
    let inner := Reader.ofDepth n
    { statement := Compile.statement inner
      subexpression := Compile.subexpression inner
      restOfAssignment := Compile.restOfAssignment inner }

namespace Chunk

/-- Why the header of a compiled chunk is refused. -/
inductive BinaryFault where
  | truncated | notBinary | version | format | corrupted
  deriving DecidableEq, Repr

/-- The words for a refused header. -/
def BinaryFault.text : BinaryFault → String
  | .truncated => "truncated chunk"
  | .notBinary => "not a binary chunk"
  | .version => "version mismatch"
  | .format => "format mismatch"
  | .corrupted => "corrupted chunk"

/-- The first bytes of a compiled chunk, with what a difference in them means. -/
def binaryHeader : List (List UInt8 × BinaryFault) := [
  ([27, 76, 117, 97], .notBinary),
  ([0x54], .version),
  ([0], .format),
  ([0x19, 0x93, 13, 10, 0x1a, 10], .corrupted)]

/-- What is wrong with the header of a compiled chunk. -/
def binaryFault (source : Bytes) : BinaryFault :=
  go 0 binaryHeader
where
  go (pos : Nat) : List (List UInt8 × BinaryFault) → BinaryFault
    | [] => .truncated
    | (bytes, fault) :: rest =>
      if source.size < pos + bytes.length then .truncated
      else if source.slice pos (pos + bytes.length) == Bytes.ofList bytes then
        go (pos + bytes.length) rest
      else fault

/-- The text of an error, and whether nesting was too deep. -/
structure Failure where
  message : Bytes
  tooDeep : Bool := false

/-- Compiles the main function. -/
def main : Compile Prototype := do
  Compile.enterBlock false
  Compile.setVararg
  Compile.modifyProto fun p =>
    { p with upvalues := p.upvalues.push ⟨Compile.environmentName, true, 0, .regular⟩ }
  Compile.advance
  Compile.statements (Reader.ofDepth maxNesting)
  Compile.check .eof
  Compile.closeFunction

/-- The function of a source text with a name, or the message of its first error. -/
def compile (source name : Bytes) : Except Failure Prototype :=
  if source.get? 0 == some 27 then
    let shown := match name.get? 0 with
      | some 61 | some 64 => name.dropFirst 1
      | _ => name
    .error ⟨shown ++ ": bad binary format (".toUTF8 ++ (binaryFault source).text.toUTF8 ++
      ")".toUTF8, false⟩
  else
    let start : Compiler := {
      source
      fn := { proto := { chunk := chunkTitle name } } }
    match main.run start with
    | .ok proto _ => .ok proto
    | .error e _ => .error ⟨e.message name, e.fault = .nestedTooDeep⟩

end Chunk

end PixelHost.Lua
