/-!
# Byte strings

A script, a frame, a request head and the text of a script value are all strings of bytes. This
module holds the operations on `ByteArray` that the rest of the library shares: cutting, searching
and the order by bytes.

## Main definitions

* `PixelHost.Bytes` — a string of bytes.
* `Bytes.slice`, `Bytes.find?`, `Bytes.occursAt` — cutting and searching.
* `Bytes.lt` — the lexicographic order by bytes.
* `Bytes.toHex`, `Bytes.ofHex?` — the lower-case hexadecimal form.
-/

namespace PixelHost

/-- A string of bytes. -/
abbrev Bytes := ByteArray

instance : DecidableEq Bytes := ByteArray.instDecidableEq

namespace Bytes

/-- The UTF-8 bytes of a text. -/
def ofString (s : String) : Bytes := s.toUTF8

/-- The bytes of a list, in order. -/
def ofList (bs : List UInt8) : Bytes := ⟨bs.toArray⟩

/-- The byte at a position, `0` past the end. -/
@[inline] def at0 (s : Bytes) (i : Nat) : UInt8 :=
  if h : i < s.size then s[i] else 0

/-- The byte at a position, if there is one. -/
@[inline] def get? (s : Bytes) (i : Nat) : Option UInt8 :=
  if h : i < s.size then some s[i] else none

/-- The bytes at the positions `first ≤ i < last`. -/
def slice (s : Bytes) (first last : Nat) : Bytes := s.extract first last

/-- The bytes from a position on. -/
def dropFirst (s : Bytes) (n : Nat) : Bytes := s.extract n s.size

/-- The same byte `n` times. -/
def replicate (n : Nat) (b : UInt8) : Bytes := ⟨Array.replicate n b⟩

/-- A byte string written `n` times in a row, doubling what is written so far. -/
def repeated (s : Bytes) (n : Nat) : Bytes :=
  if n = 0 then .empty
  else if n = 1 then s
  else
    let half := repeated s (n / 2)
    if n % 2 = 0 then half ++ half else half ++ half ++ s
termination_by n
decreasing_by omega

/-- The two strings agree from position `i` of `s` and `j` of `t` on, for `n` bytes. -/
def agree (s t : Bytes) (i j : Nat) : Nat → Bool
  | 0 => true
  | n + 1 => s.at0 i == t.at0 j && agree s t (i + 1) (j + 1) n

/-- The string `pat` stands in `s` at position `i`. -/
def occursAt (s pat : Bytes) (i : Nat) : Bool :=
  i + pat.size ≤ s.size && agree s pat i 0 pat.size

/-- The first position from `start` on, among the next `tries`, at which `pat` stands in `s`. -/
def findFrom (s pat : Bytes) (start : Nat) : Nat → Option Nat
  | 0 => none
  | tries + 1 => if s.occursAt pat start then some start else findFrom s pat (start + 1) tries

/-- The first position from `start` on at which `pat` stands in `s`. -/
def find? (s pat : Bytes) (start : Nat) : Option Nat :=
  findFrom s pat start (s.size + 1 - start)

/-- The first position from `start` on of a byte. -/
def findByte? (s : Bytes) (b : UInt8) (start : Nat) : Option Nat :=
  s.findIdx? (· == b) start

/-- The string begins with `pat`. -/
def startsWith (s pat : Bytes) : Bool := s.occursAt pat 0

/-- The string ends with `pat`. -/
def endsWith (s pat : Bytes) : Bool :=
  pat.size ≤ s.size && s.occursAt pat (s.size - pat.size)

/-- The order of two strings from position `i` on, looking at most at `n` bytes. -/
def compareFrom (s t : Bytes) (i : Nat) : Nat → Ordering
  | 0 => compare s.size t.size
  | n + 1 =>
    if i < s.size ∧ i < t.size then
      if s.at0 i < t.at0 i then .lt
      else if t.at0 i < s.at0 i then .gt
      else compareFrom s t (i + 1) n
    else compare s.size t.size

/-- The lexicographic order by bytes. -/
def order (s t : Bytes) : Ordering := compareFrom s t 0 (min s.size t.size)

/-- The string comes strictly before the other in the order by bytes. -/
def lt (s t : Bytes) : Bool := s.order t == .lt

/-- The string comes before the other in the order by bytes, or equals it. -/
def le (s t : Bytes) : Bool := s.order t != .gt

/-- The bytes before the first zero byte. -/
def untilZero (s : Bytes) : Bytes :=
  match s.findByte? 0 0 with
  | some i => s.slice 0 i
  | none => s

/-- The text of a byte string that is known to be ASCII. -/
def asciiText (s : Bytes) : String :=
  s.foldl (fun t b => t.push (Char.ofNat b.toNat)) ""

/-- The lower-case hexadecimal digit of a number below sixteen. -/
def hexDigit (n : Nat) : Char :=
  if n < 10 then Char.ofNat (48 + n) else Char.ofNat (87 + n)

/-- Two lower-case hexadecimal digits for each byte. -/
def toHex (s : Bytes) : String :=
  s.foldl (fun t b => (t.push (hexDigit (b.toNat / 16))).push (hexDigit (b.toNat % 16))) ""

/-- The value of a hexadecimal digit, of either case. -/
def hexValue? (c : UInt8) : Option Nat :=
  if 48 ≤ c ∧ c ≤ 57 then some (c.toNat - 48)
  else if 97 ≤ c ∧ c ≤ 102 then some (c.toNat - 87)
  else if 65 ≤ c ∧ c ≤ 70 then some (c.toNat - 55)
  else none

/-- The bytes that a list of hexadecimal digits spells, if it does. -/
def ofHexDigits : List UInt8 → Option (List UInt8)
  | [] => some []
  | [_] => none
  | a :: b :: rest => do
    let hi ← hexValue? a
    let lo ← hexValue? b
    return UInt8.ofNat (hi * 16 + lo) :: (← ofHexDigits rest)

/-- The bytes that a text spells in hexadecimal, if it does. -/
def ofHex? (t : String) : Option Bytes :=
  (ofHexDigits t.toUTF8.toList).map ofList

end Bytes

end PixelHost
