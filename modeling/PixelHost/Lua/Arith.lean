import PixelHost.Binary64
import PixelHost.Text.Numeral
import PixelHost.Lua.Code

/-!
# Arithmetic

The operators on numbers. A number is an integer of 64 bits with sign, which wraps around, or a
double. Addition, subtraction, multiplication, floor division and modulo of two integers give an
integer; any other mixture is computed on doubles. Division and power always give a double, the
bitwise operators an integer.

## Main definitions

* `Lua.ArithFault` — why an operation on two numbers has no result.
* `Lua.ArithOp.eval` — an operator on two numbers.
* `Lua.Arith.equal`, `Lua.Arith.less`, `Lua.Arith.lessEqual` — comparisons across both kinds.
-/

namespace PixelHost.Lua

/-- Why an operation on two numbers has no result. -/
inductive ArithFault where
  | floorDivByZero
  | moduloByZero
  | noInteger
  deriving DecidableEq, Repr

namespace Arith

/-- The double nearest to a number. -/
@[inline] def toFloat : Numeral → Float
  | .int n => n.toFloat
  | .double x => x

/-- The integer that a number is, if it is one. -/
@[inline] def toInt64? : Numeral → Option Int64
  | .int n => some n
  | .double x => Binary64.toInt64? x

/-- The quotient rounded down, for a divisor other than zero. -/
def floorDiv (m n : Int64) : Int64 :=
  if n == -1 then -m
  else
    let q := m / n
    if (m ^^^ n) < 0 && m % n != 0 then q - 1 else q

/-- The remainder with the sign of the divisor, for a divisor other than zero. -/
def floorMod (m n : Int64) : Int64 :=
  if n == -1 then 0
  else
    let r := m % n
    if r != 0 && (r ^^^ n) < 0 then r + n else r

/-- The quotient of two doubles rounded down. -/
def floorDivFloat (x y : Float) : Float := (x / y).floor

/-- The remainder of two doubles with the sign of the divisor. -/
def floorModFloat (x y : Float) : Float :=
  let r := Binary64.remainder x y
  if (r > 0 && y < 0) || (r < 0 && y > 0) then r + y else r

/-- A power. A square is a product. -/
def power (x y : Float) : Float := if y == 2.0 then x * x else Float.pow x y

/-- A shift to the left; a negative amount shifts to the right, filling with zeros. -/
def shiftLeft (x y : Int64) : Int64 :=
  let bits := x.toUInt64
  if y ≤ -64 || y ≥ 64 then 0
  else if y < 0 then (bits >>> (-y).toUInt64).toInt64
  else (bits <<< y.toUInt64).toInt64

/-- A shift to the right. -/
def shiftRight (x y : Int64) : Int64 :=
  if y == Int64.minValue then 0 else shiftLeft x (-y)

/-- Two numbers are equal as numbers. -/
def equal : Numeral → Numeral → Bool
  | .int m, .int n => m == n
  | .double x, .double y => x == y
  | .int m, .double y => Binary64.toInt64? y == some m
  | .double x, .int n => Binary64.toInt64? x == some n

/-- Integers of this size convert to a double without loss. -/
@[inline] def fitsDouble (n : Int64) : Bool := -0x20000000000000 ≤ n && n ≤ 0x20000000000000

/-- A number is smaller than another. -/
def less : Numeral → Numeral → Bool
  | .int m, .int n => m < n
  | .double x, .double y => x < y
  | .int m, .double y =>
    if fitsDouble m then m.toFloat < y else Binary64.compareInt y m.toInt == some .gt
  | .double x, .int n =>
    if fitsDouble n then x < n.toFloat else Binary64.compareInt x n.toInt == some .lt

/-- A number is smaller than another or equal to it. -/
def lessEqual : Numeral → Numeral → Bool
  | .int m, .int n => m ≤ n
  | .double x, .double y => x ≤ y
  | .int m, .double y =>
    if fitsDouble m then m.toFloat ≤ y
    else match Binary64.compareInt y m.toInt with
      | some .lt | none => false
      | _ => true
  | .double x, .int n =>
    if fitsDouble n then x ≤ n.toFloat
    else match Binary64.compareInt x n.toInt with
      | some .gt | none => false
      | _ => true

end Arith

namespace ArithOp

/-- The operator works on integers only. -/
def isBitwise : ArithOp → Bool
  | .bitAnd | .bitOr | .bitXor | .shiftLeft | .shiftRight => true
  | _ => false

/-- A bitwise operator on two integers. -/
def evalBits (op : ArithOp) (m n : Int64) : Int64 :=
  match op with
  | .bitAnd => m &&& n
  | .bitOr => m ||| n
  | .bitXor => m ^^^ n
  | .shiftLeft => Arith.shiftLeft m n
  | _ => Arith.shiftRight m n

/-- An arithmetic operator on two doubles. -/
def evalFloat (op : ArithOp) (x y : Float) : Float :=
  match op with
  | .add => x + y
  | .sub => x - y
  | .mul => x * y
  | .mod => Arith.floorModFloat x y
  | .pow => Arith.power x y
  | .floorDiv => Arith.floorDivFloat x y
  | _ => x / y

/-- An arithmetic operator on two integers, apart from division and power. -/
def evalInt (op : ArithOp) (m n : Int64) : Except ArithFault Numeral :=
  match op with
  | .add => .ok (.int (m + n))
  | .sub => .ok (.int (m - n))
  | .mul => .ok (.int (m * n))
  | .mod => if n == 0 then .error .moduloByZero else .ok (.int (Arith.floorMod m n))
  | .floorDiv => if n == 0 then .error .floorDivByZero else .ok (.int (Arith.floorDiv m n))
  | op => .ok (.double (op.evalFloat m.toFloat n.toFloat))

/-- An operator on two numbers. -/
def eval (op : ArithOp) (x y : Numeral) : Except ArithFault Numeral :=
  if op.isBitwise then
    match Arith.toInt64? x, Arith.toInt64? y with
    | some m, some n => .ok (.int (op.evalBits m n))
    | _, _ => .error .noInteger
  else
    match x, y with
    | .int m, .int n => op.evalInt m n
    | x, y => .ok (.double (op.evalFloat (Arith.toFloat x) (Arith.toFloat y)))

/-- The result that a program may have computed in advance: it exists, divides by nothing that is
zero, and is neither a not-a-number nor a zero double. -/
def fold? (op : ArithOp) (x y : Numeral) : Option Numeral :=
  let dividesByZero := match op with
    | .div | .floorDiv | .mod => Arith.toFloat y == 0.0
    | _ => false
  if dividesByZero then none
  else match op.eval x y with
    | .ok (.double z) => if z.isNaN || z == 0.0 then none else some (.double z)
    | .ok n => some n
    | .error _ => none

end ArithOp

end PixelHost.Lua
