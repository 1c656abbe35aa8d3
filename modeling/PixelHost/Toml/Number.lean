import PixelHost.Binary64
import PixelHost.Toml.Text

/-!
# Numbers and moments of a document

Integers fit 64 bits with sign; a decimal one has no leading zeros, and a sign stands before decimal
ones only. An underscore may stand between two digits. Floats have a fraction or an exponent, and
are not so large that they would be infinite, unless they are negative. Dates are those of the
calendar.

## Main definitions

* `Toml.Reader.integer`, `Toml.Reader.float`, `Toml.Reader.moment`.
* `Toml.Reader.scalar` — any value without parts.
-/

namespace PixelHost.Toml.Reader

/-! ### Digits -/

/-- Digits, with underscores between some of them. -/
def digits (isDigit : Char → Bool) : Reader (List Char) := do
  let first ← next isDigit
  let more ← repeated (next isDigit <|> (do char '_'; next isDigit))
  return first :: more

/-- The number with the given digits. -/
def ofDigits (base : Nat) (chars : List Char) : Nat :=
  chars.foldl (fun n c => n * base + hexValue c) 0

/-- Decimal digits without a leading zero. -/
def wholeDigits : Reader (List Char) :=
  (do char '0'; return ['0']) <|> digits Char.isDigit

/-- A sign: whether the number is negative. -/
def sign : Reader Bool := do
  match ← optional (next fun c => c == '+' || c == '-') with
  | some c => return c == '-'
  | none => return false

/-! ### Integers -/

/-- A number in a base, after its mark. -/
def based (mark : String) (base : Nat) (isDigit : Char → Bool) : Reader Int := do
  word mark
  return ofDigits base (← digits isDigit)

/-- An integer. -/
def integer : Reader Int := do
  let n ← based "0x" 16 isHexDigit
    <|> based "0o" 8 (fun c => '0' ≤ c && c ≤ '7')
    <|> based "0b" 2 (fun c => c == '0' || c == '1')
    <|> (do
      let negative ← sign
      let n : Int := ofDigits 10 (← wholeDigits)
      return if negative then -n else n)
  guard (Binary64.fitsInt64 n)
  return n

/-! ### Floats -/

/-- The digits of a fraction, after the point. -/
def fraction : Reader (List Char) := do
  char '.'
  digits Char.isDigit

/-- An exponent. -/
def exponent : Reader Int := do
  discard (next fun c => c == 'e' || c == 'E')
  let negative ← sign
  let n : Int := ofDigits 10 (← digits Char.isDigit)
  return if negative then -n else n

/-- A float in decimal digits. -/
def decimalFloat : Reader Float := do
  let negative ← sign
  let whole ← wholeDigits
  let places ← optional fraction
  let power ← optional exponent
  guard (places.isSome || power.isSome)
  let places := places.getD []
  let x := Binary64.ofDecimal negative (ofDigits 10 (whole ++ places))
    (power.getD 0 - Int.ofNat places.length)
  guard (x.isFinite || negative)
  return x

/-- A float by its name. -/
def namedFloat : Reader Float := do
  let negative ← sign
  let x ← (do word "inf"; return 1.0 / 0.0) <|> (do word "nan"; return 0.0 / 0.0)
  return if negative then -x else x

/-- A float. -/
def float : Reader Float := decimalFloat <|> namedFloat

/-! ### Dates and times -/

/-- A number of so many decimal digits, in a range. -/
def numeral (count low high : Nat) : Reader Nat := do
  let chars ← (List.range count).mapM fun _ => next Char.isDigit
  let n := ofDigits 10 chars
  guard (low ≤ n && n ≤ high)
  return n

/-- The year has a twenty-ninth of February. -/
def isLeapYear (year : Nat) : Bool := year % 4 == 0 && (year % 100 != 0 || year % 400 == 0)

/-- The number of days of a month. -/
def daysOf (year month : Nat) : Nat :=
  if month == 2 then (if isLeapYear year then 29 else 28)
  else if month == 4 || month == 6 || month == 9 || month == 11 then 30
  else 31

/-- A date. -/
def date : Reader Unit := do
  let year ← numeral 4 0 9999
  char '-'
  let month ← numeral 2 1 12
  char '-'
  discard (numeral 2 1 (daysOf year month))

/-- A time of day. -/
def time : Reader Unit := do
  discard (numeral 2 0 23)
  char ':'
  discard (numeral 2 0 59)
  char ':'
  discard (numeral 2 0 60)
  discard (optional (do char '.'; some1 Char.isDigit))

/-- The distance from universal time. -/
def zone : Reader Unit :=
  discard (next fun c => c == 'Z' || c == 'z') <|> do
    discard (next fun c => c == '+' || c == '-')
    discard (numeral 2 0 23)
    char ':'
    discard (numeral 2 0 59)

/-- A date, a time of day, or both. -/
def moment : Reader Unit :=
  (do
    date
    discard (optional (do
      discard (next fun c => c == 'T' || c == 't' || c == ' ')
      time
      optional zone)))
  <|> time

/-! ### Values without parts -/

/-- A truth value. -/
def boolean : Reader Bool := (do word "true"; return true) <|> (do word "false"; return false)

/-- A value without parts. -/
def scalar : Reader Scalar :=
  .string <$> string <|> .boolean <$> boolean <|> (do moment; return .moment)
    <|> .float <$> float <|> .integer <$> integer

end PixelHost.Toml.Reader
