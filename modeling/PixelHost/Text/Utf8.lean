import PixelHost.Bytes

/-!
# UTF-8

Which byte strings are UTF-8, where the first fault of one that is not stands, and the text that is
left when every fault is replaced by the replacement character.

A fault is found at the first byte that no well-formed sequence continues with. It spans the bytes
that a well-formed sequence could still have begun with, so a cut-off sequence at the end of the
string is told apart from a wrong one.

## Main definitions

* `Utf8.Fault` — what is wrong at the first position that is not well formed.
* `Utf8.scan` — one sequence at a position.
* `Utf8.firstFault?` — the first fault of a byte string.
* `Utf8.lossy` — the text with every fault replaced.
-/

namespace PixelHost.Utf8

/-- What is wrong with the bytes at a position. -/
inductive Fault where
  /-- The next bytes, this many of them, begin no well-formed sequence. -/
  | invalid (length : Nat)
  /-- The string ends inside a sequence that was well formed so far. -/
  | incomplete
  deriving DecidableEq, Repr, Inhabited

/-- The sequence at a position: a scalar with its width, or a fault. -/
inductive Scan where
  | scalar (code width : Nat)
  | fault (f : Fault)
  deriving DecidableEq, Repr

/-- The byte continues a sequence. -/
@[inline] def isContinuation (b : UInt8) : Bool := 0x80 ≤ b && b ≤ 0xBF

/-- The second byte of a sequence of three bytes may follow its first byte. -/
def secondOfThree (first second : UInt8) : Bool :=
  if first == 0xE0 then 0xA0 ≤ second && second ≤ 0xBF
  else if first == 0xED then 0x80 ≤ second && second ≤ 0x9F
  else isContinuation second

/-- The second byte of a sequence of four bytes may follow its first byte. -/
def secondOfFour (first second : UInt8) : Bool :=
  if first == 0xF0 then 0x90 ≤ second && second ≤ 0xBF
  else if first == 0xF4 then 0x80 ≤ second && second ≤ 0x8F
  else isContinuation second

/-- The six low bits of a byte. -/
@[inline] def low6 (b : UInt8) : Nat := b.toNat % 64

/-- The sequence that starts at position `i`. -/
def scan (s : Bytes) (i : Nat) : Scan :=
  let a := s.at0 i
  if a < 0x80 then .scalar a.toNat 1
  else if 0xC2 ≤ a && a ≤ 0xDF then
    if s.size ≤ i + 1 then .fault .incomplete
    else if !isContinuation (s.at0 (i + 1)) then .fault (.invalid 1)
    else .scalar ((a.toNat % 32) * 64 + low6 (s.at0 (i + 1))) 2
  else if 0xE0 ≤ a && a ≤ 0xEF then
    if s.size ≤ i + 1 then .fault .incomplete
    else if !secondOfThree a (s.at0 (i + 1)) then .fault (.invalid 1)
    else if s.size ≤ i + 2 then .fault .incomplete
    else if !isContinuation (s.at0 (i + 2)) then .fault (.invalid 2)
    else .scalar (((a.toNat % 16) * 64 + low6 (s.at0 (i + 1))) * 64 + low6 (s.at0 (i + 2))) 3
  else if 0xF0 ≤ a && a ≤ 0xF4 then
    if s.size ≤ i + 1 then .fault .incomplete
    else if !secondOfFour a (s.at0 (i + 1)) then .fault (.invalid 1)
    else if s.size ≤ i + 2 then .fault .incomplete
    else if !isContinuation (s.at0 (i + 2)) then .fault (.invalid 2)
    else if s.size ≤ i + 3 then .fault .incomplete
    else if !isContinuation (s.at0 (i + 3)) then .fault (.invalid 3)
    else .scalar ((((a.toNat % 8) * 64 + low6 (s.at0 (i + 1))) * 64 + low6 (s.at0 (i + 2))) * 64
      + low6 (s.at0 (i + 3))) 4
  else .fault (.invalid 1)

/-- The first fault from position `i` on, looking at most at `n` sequences. -/
def firstFaultFrom (s : Bytes) (i : Nat) : Nat → Option (Nat × Fault)
  | 0 => none
  | n + 1 =>
    if s.size ≤ i then none
    else match scan s i with
      | .scalar _ w => firstFaultFrom s (i + w) n
      | .fault f => some (i, f)

/-- The position and the kind of the first fault, if the string is not UTF-8. -/
def firstFault? (s : Bytes) : Option (Nat × Fault) := firstFaultFrom s 0 s.size

/-- The wording of a fault at a position. -/
def Fault.message (f : Fault) (position : Nat) : String :=
  match f with
  | .invalid n => s!"invalid utf-8 sequence of {n} bytes from index {position}"
  | .incomplete => s!"incomplete utf-8 byte sequence from index {position}"

/-- The wording of the first fault. -/
def faultText (s : Bytes) : String :=
  match firstFault? s with
  | some (position, fault) => fault.message position
  | none => ""

/-- The text from position `i` on with every fault replaced, looking at most at `n` sequences. -/
def lossyFrom (s : Bytes) (i : Nat) (acc : String) : Nat → String
  | 0 => acc
  | n + 1 =>
    if s.size ≤ i then acc
    else match scan s i with
      | .scalar c w => lossyFrom s (i + w) (acc.push (Char.ofNat c)) n
      | .fault (.invalid w) => lossyFrom s (i + w) (acc.push '\uFFFD') n
      | .fault .incomplete => acc.push '\uFFFD'

/-- The text with every fault replaced by the replacement character. -/
def lossy (s : Bytes) : String :=
  match String.fromUTF8? s with
  | some t => t
  | none => lossyFrom s 0 "" s.size

/-- The text that the bytes spell, if they are UTF-8. -/
def decode? (s : Bytes) : Option String := String.fromUTF8? s

end PixelHost.Utf8
