import PixelHost.Bytes

/-!
# The digest of a handshake

The secure hash with 160 bits that the answer to a request for a WebSocket carries.

A message is filled up to blocks of 64 bytes: by a byte with one bit, zeros, and its length in bits.
Each block changes five words in eighty rounds.

## Main definitions

* `WebSocket.digest` — the hash of some bytes.
-/

namespace PixelHost.WebSocket

/-- The five words. -/
structure DigestState where
  a : UInt32
  b : UInt32
  c : UInt32
  d : UInt32
  e : UInt32
  deriving DecidableEq, Repr, Inhabited

namespace DigestState

/-- The words before the first block. -/
def initial : DigestState := ⟨0x67452301, 0xEFCDAB89, 0x98BADCFE, 0x10325476, 0xC3D2E1F0⟩

/-- The sums of the words of two states. -/
def add (x y : DigestState) : DigestState := ⟨x.a + y.a, x.b + y.b, x.c + y.c, x.d + y.d, x.e + y.e⟩

/-- The words one after the other. -/
def words (x : DigestState) : List UInt32 := [x.a, x.b, x.c, x.d, x.e]

end DigestState

/-- A word turned to the left. -/
def turn (x : UInt32) (n : UInt32) : UInt32 := x <<< n ||| x >>> (32 - n)

/-- How three words are mixed in a round, and the constant of the round. -/
def mixing (t : Nat) (b c d : UInt32) : UInt32 × UInt32 :=
  if t < 20 then (b &&& c ||| ~~~b &&& d, 0x5A827999)
  else if t < 40 then (b ^^^ c ^^^ d, 0x6ED9EBA1)
  else if t < 60 then (b &&& c ||| b &&& d ||| c &&& d, 0x8F1BBCDC)
  else (b ^^^ c ^^^ d, 0xCA62C1D6)

/-- A round. -/
def round (schedule : Array UInt32) (x : DigestState) (t : Nat) : DigestState :=
  let (f, k) := mixing t x.b x.c x.d
  ⟨turn x.a 5 + f + x.e + k + schedule.getD t 0, x.a, turn x.b 30, x.c, x.d⟩

/-- The bytes of a word, the highest first. -/
def wordBytes (x : UInt32) : List UInt8 :=
  [(x >>> 24).toUInt8, (x >>> 16).toUInt8, (x >>> 8).toUInt8, x.toUInt8]

/-- The word that starts at a position. -/
def wordAt (bytes : Bytes) (i : Nat) : UInt32 :=
  (List.range 4).foldl (fun w j => w <<< 8 ||| (bytes.at0 (i + j)).toUInt32) 0

/-- The eighty words for a block: its sixteen words, and each further one from four before it. -/
def scheduleOf (bytes : Bytes) (start : Nat) : Array UInt32 :=
  let block := Array.ofFn fun i : Fin 16 => wordAt bytes (start + 4 * i.val)
  (List.range 64).foldl (fun w i =>
    let t := i + 16
    let x := w.getD (t - 3) 0 ^^^ w.getD (t - 8) 0 ^^^ w.getD (t - 14) 0 ^^^ w.getD (t - 16) 0
    w.push (turn x 1)) block

/-- A block changes the words. -/
def absorb (bytes : Bytes) (x : DigestState) (block : Nat) : DigestState :=
  let schedule := scheduleOf bytes (64 * block)
  x.add ((List.range 80).foldl (round schedule) x)

/-- A message filled up to blocks. -/
def filled (message : Bytes) : Bytes :=
  let zeros := (119 - message.size % 64) % 64
  let length := 8 * message.size
  let tail := (0x80 : UInt8) :: List.replicate zeros 0 ++
    (List.range 8).map fun i => UInt8.ofNat (length >>> (8 * (7 - i)))
  message ++ ⟨tail.toArray⟩

/-- The hash of some bytes. -/
def digest (message : Bytes) : Bytes :=
  let bytes := filled message
  let x := (List.range (bytes.size / 64)).foldl (absorb bytes) .initial
  ⟨(x.words.flatMap wordBytes).toArray⟩

end PixelHost.WebSocket
