import PixelHost.Lua.Library.Argument

/-!
# Formatting of strings

The conversions of `string.format`. A conversion has flags, a width and a precision; each kind of
conversion allows only some of the flags, and the width and the precision have at most two digits.

## Main definitions

* `Lua.Library.Format.Spec` — a conversion specification.
* `Lua.Library.Format.run` — the formatted string.
-/

namespace PixelHost.Lua.Library.Format

open Run

/-- A conversion specification: the characters before the letter, and the letter. -/
structure Spec where
  modifiers : List Char
  letter : Char

/-- The specification as it is written. -/
def Spec.text (s : Spec) : String := "%" ++ String.ofList s.modifiers ++ s.letter.toString

/-- The flags that a conversion may have. -/
def flagsOfFloat : List Char := ['-', '+', '#', '0', ' ']

/-- The flags of a signed integer. -/
def flagsOfSigned : List Char := ['-', '+', '0', ' ']

/-- The flags of an unsigned integer. -/
def flagsOfUnsigned : List Char := ['-', '0']

/-- The flags of an integer in another base. -/
def flagsOfBase : List Char := ['-', '#', '0']

/-- The flags of a text. -/
def flagsOfText : List Char := ['-']

/-- Takes at most two digits. -/
def takeTwo : List Char → List Char × List Char
  | a :: b :: rest =>
    if a.isDigit then if b.isDigit then ([a, b], rest) else ([a], b :: rest) else ([], a :: b :: rest)
  | [a] => if a.isDigit then ([a], []) else ([], [a])
  | [] => ([], [])

/-- The number that digits spell. -/
def numberOf (ds : List Char) : Nat := ds.foldl (fun n d => n * 10 + (d.toNat - 48)) 0

/-- The format that a specification means, if the conversion allows it. -/
def Spec.parse? (s : Spec) (flags : List Char) (withPrecision : Bool) : Option NumberFormat :=
  let given := s.modifiers.takeWhile (flags.contains ·)
  let rest := s.modifiers.drop given.length
  let (width, rest) := match rest with
    | '0' :: _ => ([], rest)
    | rest => takeTwo rest
  let (precision, rest) := match rest with
    | '.' :: rest' =>
      if withPrecision then
        let (ds, rest) := takeTwo rest'
        (some (numberOf ds), rest)
      else (none, rest)
    | rest => (none, rest)
  if rest.isEmpty && s.letter.isAlpha then
    some {
      leftAlign := given.contains '-'
      plusSign := given.contains '+'
      spaceSign := given.contains ' '
      alternate := given.contains '#'
      zeroPad := given.contains '0'
      width := numberOf width
      precision }
  else none

/-- The format that a specification means. -/
def parse (s : Spec) (flags : List Char) (withPrecision : Bool) : Run NumberFormat := do
  match s.parse? flags withPrecision with
  | some f => return f
  | none => fail ("invalid conversion '" ++ s.text ++ "' to 'format'")

/-- A byte of a quoted string, given the byte after it. -/
def quoteByte (c next : UInt8) : List UInt8 :=
  if c == 34 || c == 92 || c == 10 then [92, c]
  else if c < 32 || c == 127 then
    let digits := toString c.toNat
    let shown :=
      if Numeral.isDigit next then "".pushn '0' (3 - digits.length) ++ digits else digits
    92 :: shown.toUTF8.toList
  else [c]

/-- The bytes of a quoted string. -/
def quoteBytes : List UInt8 → List UInt8
  | [] => []
  | c :: rest => quoteByte c (rest.headD 0) ++ quoteBytes rest

/-- A value as it is written in a program. -/
def literal (v : Value) (position : Nat) : Run Bytes := do
  match v with
  | .str s => return Bytes.ofList ([34] ++ quoteBytes s.toList ++ [34])
  | .int n =>
    if n == Int64.minValue then return "0x8000000000000000".toUTF8
    else return (toString n.toInt).toUTF8
  | .num x =>
    if x.isNaN then return "(0/0)".toUTF8
    else if x.isInf then return (if x > 0 then "1e9999" else "-1e9999").toUTF8
    else return (FloatFormat.write {} .hexadecimal false x).toUTF8
  | .nil => return "nil".toUTF8
  | .bool b => return (if b then "true" else "false").toUTF8
  | _ => badArgument position "value has no literal form".toUTF8

/-- Pads bytes to the width of a format. -/
def padBytes (f : NumberFormat) (s : Bytes) : Bytes :=
  let fill := Bytes.replicate (f.width - s.size) 32
  if f.leftAlign then s ++ fill else fill ++ s

/-- The text of an argument under a conversion. -/
def convert (c : Caller) (s : Spec) (args : Args) (position : Nat) : Run Bytes := do
  let float (kind : FloatNotation) (upper : Bool) : Run Bytes := do
    let x ← args.number position
    let f ← parse s flagsOfFloat true
    return (FloatFormat.write f kind upper x).toUTF8
  match s.letter with
  | 'c' =>
    let f ← parse s flagsOfText false
    let n ← args.integer position
    return padBytes f (Bytes.ofList [n.toUInt64.toUInt8])
  | 'd' | 'i' =>
    let n ← args.integer position
    return ((← parse s flagsOfSigned true).signedInteger n.toInt).toUTF8
  | 'u' =>
    let n ← args.integer position
    return ((← parse s flagsOfUnsigned true).unsignedInteger 10 false n.toUInt64.toNat).toUTF8
  | 'o' =>
    let n ← args.integer position
    return ((← parse s flagsOfBase true).unsignedInteger 8 false n.toUInt64.toNat).toUTF8
  | 'x' =>
    let n ← args.integer position
    return ((← parse s flagsOfBase true).unsignedInteger 16 false n.toUInt64.toNat).toUTF8
  | 'X' =>
    let n ← args.integer position
    return ((← parse s flagsOfBase true).unsignedInteger 16 true n.toUInt64.toNat).toUTF8
  | 'a' | 'A' =>
    let f ← parse s flagsOfFloat true
    return (FloatFormat.write f .hexadecimal (s.letter == 'A') (← args.number position)).toUTF8
  | 'f' => float .fixed false
  | 'e' => float .scientific false
  | 'E' => float .scientific true
  | 'g' => float .general false
  | 'G' => float .general true
  | 'p' =>
    let f ← parse s flagsOfText false
    let text := match args.val position with
      | .table r => addressText 1 r
      | .closure g => addressText 2 g.id
      | .thread r => addressText 3 r
      | .native _ => addressText 4 0
      | .str t => addressText 5 t.size
      | _ => "(null)"
    return padBytes f text.toUTF8
  | 'q' =>
    unless s.modifiers.isEmpty do fail "specifier '%q' cannot have modifiers"
    literal (args.val position) position
  | 's' =>
    let t ← c.textOf (args.val position)
    if s.modifiers.isEmpty then return t
    else
      Args.require position (t.findByte? 0 0).isNone "string contains zeros"
      let f ← parse s flagsOfText true
      if !(s.modifiers.contains '.') && t.size ≥ 100 then return t
      else
        let shown := match f.precision with
          | some n => t.slice 0 (min n t.size)
          | none => t
        return padBytes f shown
  | _ => fail ("invalid conversion '" ++ s.text ++ "' to 'format'")

/-- The longest conversion specification. -/
def maxSpec : Nat := 22

/-- Formats the rest of a format string; `next` is the argument of the next conversion. -/
def formatFrom (c : Caller) (args : Args) (n : Nat) (acc : Bytes) (next : Nat) :
    List UInt8 → Run Bytes
  | [] => return acc
  | 37 :: 37 :: rest =>
    match n with
    | 0 => return acc
    | n + 1 => formatFrom c args n (acc.push 37) next rest
  | 37 :: rest =>
    match n with
    | 0 => return acc
    | n + 1 => do
      if args.isAbsent next then badArgument next "no value".toUTF8
      let allowed := "-+ #0.123456789".toUTF8.toList
      let modifiers := rest.takeWhile (allowed.contains ·)
      if modifiers.length + 1 ≥ maxSpec then fail "invalid format string to 'format'"
      let after := rest.drop modifiers.length
      let toChars (bs : List UInt8) : List Char := bs.map fun b => Char.ofNat b.toNat
      match after with
      | [] =>
        fail ("invalid conversion '%" ++ String.ofList (toChars modifiers) ++ "' to 'format'")
      | letter :: after =>
        let s : Spec := ⟨toChars modifiers, Char.ofNat letter.toNat⟩
        let t ← convert c s args next
        formatFrom c args n (acc ++ t) (next + 1) after
  | b :: rest =>
    match n with
    | 0 => return acc
    | n + 1 => formatFrom c args n (acc.push b) next rest

/-- The formatted string. -/
def run (c : Caller) (args : Args) : Run (Array Value) := do
  let format ← args.string 1
  let s ← formatFrom c args (format.size + 1) .empty 2 format.toList
  demand s.size
  return #[← newString s]

end PixelHost.Lua.Library.Format
