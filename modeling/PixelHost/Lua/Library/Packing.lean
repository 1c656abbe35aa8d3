import PixelHost.Lua.Library.Argument

/-!
# Packed values

The binary forms of `string.pack`: integers of a given size and byte order, floating-point numbers,
strings of fixed length, with their length in front or with a zero byte at the end, and padding.

## Main definitions

* `Lua.Library.Packing.Kind`, `Lua.Library.Packing.Item` — the items of a format.
* `Lua.Library.Packing.pack`, `Lua.Library.Packing.unpack`, `Lua.Library.Packing.size`.
-/

namespace PixelHost.Lua.Library.Packing

open Run

/-- The kinds of items. -/
inductive Kind where
  | int | uint | float | double | char | string | zeroString | padding | alignment | none
  deriving DecidableEq, Repr, Inhabited

/-- What the format has set so far. -/
structure Layout where
  little : Bool := true
  maxAlign : Nat := 1

/-- An item of a format with its size, the padding before it, and the rest of the format. -/
structure Item where
  kind : Kind
  size : Nat
  padding : Nat
  layout : Layout
  rest : List UInt8

/-- The largest size of an integer. -/
def maxIntSize : Nat := 16

/-- The size of the integers of the language. -/
def intSize : Nat := 8

/-- The largest size of a packed text. -/
def maxSize : Nat := 0x7FFFFFFF

/-- Reads a number, if there is one. -/
def takeNumber (acc : Option Nat) : List UInt8 → Option Nat × List UInt8
  | [] => (acc, [])
  | c :: rest =>
    if Numeral.isDigit c ∧ acc.getD 0 ≤ (maxSize - 9) / 10 then
      takeNumber (some (acc.getD 0 * 10 + (c.toNat - 48))) rest
    else (acc, c :: rest)

/-- Reads the size of an integer. -/
def takeIntSize (absent : Nat) (format : List UInt8) : Run (Nat × List UInt8) := do
  let (n, rest) := takeNumber none format
  let n := n.getD absent
  if n > maxIntSize || n == 0 then
    fail s!"integral size ({n}) out of limits [1,{maxIntSize}]"
  return (n, rest)

/-- Reads an option: its kind, its size and the layout after it. -/
def takeOption (layout : Layout) (opt : UInt8) (rest : List UInt8) :
    Run (Kind × Nat × Layout × List UInt8) := do
  let plain (kind : Kind) (size : Nat) : Run (Kind × Nat × Layout × List UInt8) :=
    return (kind, size, layout, rest)
  match Char.ofNat opt.toNat with
  | 'b' => plain .int 1
  | 'B' => plain .uint 1
  | 'h' => plain .int 2
  | 'H' => plain .uint 2
  | 'l' | 'j' => plain .int 8
  | 'L' | 'J' | 'T' => plain .uint 8
  | 'f' => plain .float 4
  | 'n' | 'd' => plain .double 8
  | 'i' =>
    let (n, rest) ← takeIntSize 4 rest
    return (.int, n, layout, rest)
  | 'I' =>
    let (n, rest) ← takeIntSize 4 rest
    return (.uint, n, layout, rest)
  | 's' =>
    let (n, rest) ← takeIntSize 8 rest
    return (.string, n, layout, rest)
  | 'c' =>
    match takeNumber none rest with
    | (some n, rest) => return (.char, n, layout, rest)
    | (none, _) => fail "missing size for format option 'c'"
  | 'z' => plain .zeroString 0
  | 'x' => plain .padding 1
  | 'X' => plain .alignment 0
  | ' ' => plain .none 0
  | '<' => return (.none, 0, { layout with little := true }, rest)
  | '>' => return (.none, 0, { layout with little := false }, rest)
  | '=' => return (.none, 0, { layout with little := true }, rest)
  | '!' =>
    let (n, rest) ← takeIntSize 8 rest
    return (.none, 0, { layout with maxAlign := n }, rest)
  | _ => raiseAtCaller ("invalid format option '".toUTF8 ++ Bytes.ofList [opt] ++ "'".toUTF8)

/-- Reads the next item of a format after `total` bytes. -/
def takeItem (layout : Layout) (total : Nat) (opt : UInt8) (rest : List UInt8) : Run Item := do
  let (kind, size, layout, rest) ← takeOption layout opt rest
  let (align, rest) ← if kind == .alignment then
      match rest with
      | [] => badArgument 1 "invalid next option for option 'X'".toUTF8
      | opt :: rest =>
        let (next, align, _, rest) ← takeOption layout opt rest
        if next == .char || align == 0 then
          badArgument 1 "invalid next option for option 'X'".toUTF8
        pure (align, rest)
    else pure (size, rest)
  if align ≤ 1 || kind == .char then return ⟨kind, size, 0, layout, rest⟩
  else
    let align := min align layout.maxAlign
    if align ≠ 1 <<< align.log2 then
      badArgument 1 "format asks for alignment not power of 2".toUTF8
    return ⟨kind, size, (align - total % align) % align, layout, rest⟩

/-- The lowest bytes of an integer in a byte order. -/
def integerBytes (n : Int) (size : Nat) (little : Bool) : List UInt8 :=
  let wrapped := (n % (1 <<< (8 * size) : Nat)).toNat
  let bytes := (List.range size).map fun i => UInt8.ofNat (wrapped >>> (8 * i))
  if little then bytes else bytes.reverse

/-- The natural number that bytes spell in a byte order. -/
def naturalOf (bytes : List UInt8) (little : Bool) : Nat :=
  (if little then bytes.reverse else bytes).foldl (fun n b => n * 256 + b.toNat) 0

/-- Packs the arguments from a position on; `n` bounds the number of items. -/
def packFrom (args : Args) (layout : Layout) (n : Nat) (acc : Bytes) (next : Nat) :
    List UInt8 → Run Bytes
  | [] => return acc
  | opt :: rest =>
    match n with
    | 0 => return acc
    | n + 1 => do
      let item ← takeItem layout acc.size opt rest
      let acc := acc ++ Bytes.replicate item.padding 0
      let size := item.size
      let little := item.layout.little
      let put (bytes : List UInt8) : Run Bytes :=
        packFrom args item.layout n (acc ++ Bytes.ofList bytes) (next + 1) item.rest
      match item.kind with
      | .int =>
        let i ← args.integer next
        if size < intSize then
          let limit := Int.ofNat (1 <<< (size * 8 - 1))
          Args.require next (-limit ≤ i.toInt && i.toInt < limit) "integer overflow"
        put (integerBytes i.toInt size little)
      | .uint =>
        let i ← args.integer next
        if size < intSize then
          Args.require next (i.toUInt64.toNat < 1 <<< (size * 8)) "unsigned overflow"
        put (integerBytes i.toUInt64.toNat size little)
      | .float =>
        let x ← args.number next
        put (integerBytes x.toFloat32.toBits.toNat 4 little)
      | .double =>
        let x ← args.number next
        put (integerBytes x.toBits.toNat 8 little)
      | .char =>
        let s ← args.string next
        Args.require next (s.size ≤ size) "string longer than given size"
        put (s.toList ++ List.replicate (size - s.size) 0)
      | .string =>
        let s ← args.string next
        Args.require next (size ≥ 8 || s.size < 1 <<< (size * 8))
          "string length does not fit in given size"
        put (integerBytes s.size size little ++ s.toList)
      | .zeroString =>
        let s ← args.string next
        Args.require next (s.findByte? 0 0).isNone "string contains zeros"
        put (s.toList ++ [0])
      | .padding => packFrom args item.layout n (acc.push 0) next item.rest
      | .alignment | .none => packFrom args item.layout n acc next item.rest

/-- The packed arguments. -/
def pack (args : Args) : Run (Array Value) := do
  let format ← args.string 1
  let s ← packFrom args {} (format.size + 1) .empty 2 format.toList
  return #[← newString s]

/-- The size of the items of a format; `n` bounds their number. -/
def sizeFrom (layout : Layout) (n : Nat) (total : Nat) : List UInt8 → Run Nat
  | [] => return total
  | opt :: rest =>
    match n with
    | 0 => return total
    | n + 1 => do
      let item ← takeItem layout total opt rest
      Args.require 1 (item.kind ≠ .string && item.kind ≠ .zeroString) "variable-length format"
      let size := item.padding + item.size
      Args.require 1 (total + size ≤ maxSize) "format result too large"
      sizeFrom item.layout n (total + size) item.rest

/-- The size of what a format packs. -/
def size (args : Args) : Run (Array Value) := do
  let format ← args.string 1
  return #[.ofNat (← sizeFrom {} (format.size + 1) 0 format.toList)]

/-- Reads an integer of some size. -/
def readInteger (bytes : List UInt8) (little signed : Bool) : Run Int64 := do
  let size := bytes.length
  let n := naturalOf bytes little
  if size ≤ intSize then
    if signed && size < intSize && n ≥ 1 <<< (size * 8 - 1) then
      return Int64.ofInt (Int.ofNat n - Int.ofNat (1 <<< (size * 8)))
    else return (UInt64.ofNat n).toInt64
  else
    let high := n >>> 64
    let allOnes := (1 <<< ((size - intSize) * 8)) - 1
    let low := UInt64.ofNat n
    if high == 0 || (signed && high == allOnes && low.toInt64 < 0) then return low.toInt64
    else fail s!"{size}-byte integer does not fit into Lua Integer"

/-- Unpacks the items of a format from a position of the data on. -/
def unpackFrom (data : Bytes) (layout : Layout) (n : Nat) (acc : Array Value) (pos : Nat) :
    List UInt8 → Run (Array Value)
  | [] => return acc.push (.ofNat (pos + 1))
  | opt :: rest =>
    match n with
    | 0 => return acc
    | n + 1 => do
      let item ← takeItem layout pos opt rest
      Args.require 2 (item.padding + item.size ≤ data.size - pos) "data string too short"
      let pos := pos + item.padding
      let size := item.size
      let little := item.layout.little
      let bytes := (data.slice pos (pos + size)).toList
      let give (v : Value) (pos : Nat) : Run (Array Value) :=
        unpackFrom data item.layout n (acc.push v) pos item.rest
      match item.kind with
      | .int => give (.int (← readInteger bytes little true)) (pos + size)
      | .uint => give (.int (← readInteger bytes little false)) (pos + size)
      | .float =>
        give (.num (Float32.ofBits (UInt32.ofNat (naturalOf bytes little))).toFloat) (pos + size)
      | .double => give (.num (Float.ofBits (UInt64.ofNat (naturalOf bytes little)))) (pos + size)
      | .char => give (.str (Bytes.ofList bytes)) (pos + size)
      | .string =>
        let len := (← readInteger bytes little false).toUInt64.toNat
        Args.require 2 (len ≤ data.size - pos - size) "data string too short"
        give (.str (data.slice (pos + size) (pos + size + len))) (pos + size + len)
      | .zeroString =>
        match data.findByte? 0 pos with
        | some last => give (.str (data.slice pos last)) (last + 1)
        | none => badArgument 2 "unfinished string for format 'z'".toUTF8
      | .padding | .alignment | .none =>
        unpackFrom data item.layout n acc (pos + size) item.rest

/-- The values in packed data. -/
def unpack (args : Args) : Run (Array Value) := do
  let format ← args.string 1
  let data ← args.string 2
  let pos := startPosition (← args.integerOr 3 1) data.size - 1
  Args.require 3 (pos ≤ data.size) "initial position out of string"
  unpackFrom data {} (format.size + 1) #[] pos format.toList

end PixelHost.Lua.Library.Packing
