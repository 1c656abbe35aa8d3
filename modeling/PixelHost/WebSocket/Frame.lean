import PixelHost.Bytes

/-!
# WebSocket frames

A frame has a head of two to fourteen bytes, and a payload. The head tells the kind of the frame,
whether it is the last of its message, the length of the payload, and the mask that the payload of a
client is combined with.

## Main definitions

* `WebSocket.Frame` — a frame.
* `WebSocket.Frame.split` — takes a frame off the front of some bytes.
* `WebSocket.Frame.bytes` — the bytes of a frame of the server.
-/

namespace PixelHost.WebSocket

/-- The kinds of frames. -/
inductive Opcode where
  | continuation
  | text
  | binary
  | close
  | ping
  | pong
  deriving DecidableEq, Repr, Inhabited

namespace Opcode

/-- The kinds by their numbers. -/
def numbers : List (Nat × Opcode) :=
  [(0, continuation), (1, text), (2, binary), (8, close), (9, ping), (10, pong)]

/-- The number of a kind. -/
def number : Opcode → Nat
  | continuation => 0
  | text => 1
  | binary => 2
  | close => 8
  | ping => 9
  | pong => 10

/-- The kind with a number. -/
def ofNumber? (n : Nat) : Option Opcode := numbers.lookup n

/-- The frame controls the connection. -/
def isControl (o : Opcode) : Bool := 8 ≤ o.number

end Opcode

/-- A frame. -/
structure Frame where
  opcode : Opcode
  /-- The frame is the last of its message. -/
  isFinal : Bool := true
  /-- One of the bits that have no meaning is set. -/
  hasReservedBits : Bool := false
  isMasked : Bool := false
  /-- The payload without its mask. -/
  payload : Bytes := .empty

/-- What stands at the front of some bytes. -/
inductive Split where
  /-- The start of a frame. -/
  | incomplete
  /-- A frame of a kind that there is not. -/
  | unknownKind
  /-- A frame whose payload is too long. -/
  | tooLong
  /-- A frame, with its length. -/
  | frame (f : Frame) (length : Nat)

namespace Frame

/-- The number that so many bytes from a position on stand for. -/
def numberAt (bytes : Bytes) (i count : Nat) : Nat :=
  (List.range count).foldl (fun n j => n * 256 + (bytes.at0 (i + j)).toNat) 0

/-- The number of further bytes of the head that hold the length of the payload. -/
def lengthBytes (second : Nat) : Nat :=
  if second % 128 = 126 then 2 else if second % 128 = 127 then 8 else 0

/-- A payload combined with the mask at a position; the same undoes it. -/
def unmask (bytes : Bytes) (maskAt start length : Nat) : Bytes :=
  ⟨Array.ofFn fun i : Fin length => bytes.at0 (start + i.val) ^^^ bytes.at0 (maskAt + i.val % 4)⟩

/-- Takes a frame off the front of some bytes. A payload longer than a limit is refused before it has
arrived. -/
def split (limit : Nat) (bytes : Bytes) : Split :=
  let first := (bytes.at0 0).toNat
  let second := (bytes.at0 1).toNat
  let extra := lengthBytes second
  let isMasked := second ≥ 128
  let start := 2 + extra + if isMasked then 4 else 0
  if bytes.size < start then .incomplete
  else
    let length := if extra = 0 then second % 128 else numberAt bytes 2 extra
    match Opcode.ofNumber? (first % 16) with
    | none => .unknownKind
    | some opcode =>
      if length > limit then .tooLong
      else if bytes.size < start + length then .incomplete
      else
        let payload :=
          if isMasked then unmask bytes (start - 4) start length
          else bytes.extract start (start + length)
        .frame {
          opcode, isMasked, payload
          isFinal := first ≥ 128
          hasReservedBits := first / 16 % 8 ≠ 0 } (start + length)

/-- A number in so many bytes, the highest first. -/
def numberBytes (n count : Nat) : List UInt8 :=
  (List.range count).map fun i => UInt8.ofNat (n >>> (8 * (count - 1 - i)))

/-- The head of a frame of the server, which has no mask. -/
def head (f : Frame) : Bytes :=
  let first := f.opcode.number + if f.isFinal then 128 else 0
  let n := f.payload.size
  let length :=
    if n < 126 then [UInt8.ofNat n]
    else if n < 65536 then 126 :: numberBytes n 2
    else 127 :: numberBytes n 8
  ⟨(UInt8.ofNat first :: length).toArray⟩

/-- The bytes of a frame of the server. -/
def bytes (f : Frame) : Bytes := f.head ++ f.payload

/-- A frame that closes the connection, for a reason or without one. -/
def closing (reason : Option (Nat × String)) : Frame where
  opcode := .close
  payload := match reason with
    | none => .empty
    | some (code, text) => ⟨(numberBytes code 2).toArray⟩ ++ text.toUTF8

end Frame

end PixelHost.WebSocket
