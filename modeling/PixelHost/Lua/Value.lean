import PixelHost.Lua.Code
import PixelHost.Lua.Native
import PixelHost.Text.FloatFormat
import PixelHost.Text.Numeral

/-!
# Values

The values that a script works on. Strings and numbers are values by themselves; tables, threads
and captured variables are places of the heap (`PixelHost.Lua.Heap`), and the value is a reference.

## Main definitions

* `Lua.Closure` — a function of a program with the variables it captured.
* `Lua.HostError` — an error of the host in a script.
* `Lua.Value` — the values.
* `Lua.Value.rawEqual` — equality without metamethods.
* `Lua.Value.typeName` — the name of a kind of value.
-/

namespace PixelHost.Lua

/-- The place of a table. -/
abbrev TableRef := Nat

/-- The place of a captured variable. -/
abbrev CellRef := Nat

/-- The place of a coroutine. -/
abbrev ThreadRef := Nat

/-- A function of a program with the places of the variables it captured. Two closures are the same
function if their numbers are equal. -/
structure Closure where
  id : Nat := 0
  proto : Prototype := {}
  upvalues : Array CellRef := #[]

instance : Inhabited Closure := ⟨{}⟩

/-- An error of the host in a script. A protected call catches either kind. -/
inductive HostError where
  /-- Where nothing catches it, whoever asked for the run is told. -/
  | reported (text : String)
  /-- Where nothing catches it, the host breaks off. -/
  | fatal (text : String)
  deriving DecidableEq, Repr, Inhabited

/-- A value of the script language. A `failure` is an error of the host that a script caught. -/
inductive Value where
  | nil
  | bool (b : Bool)
  | int (n : Int64)
  | num (x : Float)
  | str (s : Bytes)
  | table (r : TableRef)
  | closure (f : Closure)
  | native (f : Native)
  | thread (r : ThreadRef)
  | failure (id : Nat) (error : HostError)
  | file (name : String)

namespace Value

instance : Inhabited Value := ⟨.nil⟩

/-- A string value with the bytes of a text. -/
def ofString (s : String) : Value := .str s.toUTF8

/-- The value that a literal stands for. -/
@[inline] def ofLiteral : Literal → Value
  | .nil => .nil
  | .bool b => .bool b
  | .int n => .int n
  | .num x => .num x
  | .str s => .str s

/-- The value of a number. -/
@[inline] def ofNumeral : Numeral → Value
  | .int n => .int n
  | .double x => .num x

/-- The value of a natural number. -/
@[inline] def ofNat (n : Nat) : Value := .int (Int64.ofNat n)

/-- Every value but `nil` and `false` counts as true. -/
@[inline] def truthy : Value → Bool
  | .nil | .bool false => false
  | _ => true

/-- The value is `nil`. -/
@[inline] def isNil : Value → Bool
  | .nil => true
  | _ => false

/-- The number that a value is, if it is one. -/
@[inline] def numeral? : Value → Option Numeral
  | .int n => some (.int n)
  | .num x => some (.double x)
  | _ => none

/-- Equality without metamethods. An integer equals a double of the same value. -/
def rawEqual : Value → Value → Bool
  | .nil, .nil => true
  | .bool a, .bool b => a == b
  | .int m, .int n => m == n
  | .num x, .num y => x == y
  | .int m, .num y => Binary64.toInt64? y == some m
  | .num x, .int n => Binary64.toInt64? x == some n
  | .str s, .str t => s == t
  | .table r, .table r' => r == r'
  | .closure f, .closure g => f.id == g.id
  | .native f, .native g => f == g
  | .thread r, .thread r' => r == r'
  | .failure i _, .failure j _ => i == j
  | .file a, .file b => a == b
  | _, _ => false

/-- Whether a table files two values under the same key. A double is told by its bits: one that is an
integer is never a key, the integer is. -/
def sameKey : Value → Value → Bool
  | .nil, .nil => true
  | .bool a, .bool b => a == b
  | .int m, .int n => m == n
  | .num x, .num y => x.toBits == y.toBits
  | .str s, .str t => s == t
  | .table r, .table r' => r == r'
  | .closure f, .closure g => f.id == g.id
  | .native f, .native g => f == g
  | .thread r, .thread r' => r == r'
  | .failure i _, .failure j _ => i == j
  | .file a, .file b => a == b
  | _, _ => false

instance : BEq Value := ⟨sameKey⟩

/-- The same keys have equal hashes. -/
def hashKey : Value → UInt64
  | .nil => 1
  | .bool b => if b then 3 else 5
  | .int n => mixHash 7 n.toUInt64
  | .num x => mixHash 11 x.toBits
  | .str s => hash s
  | .table r => mixHash 13 (hash r)
  | .closure f => mixHash 17 (hash f.id)
  | .native _ => 19
  | .thread r => mixHash 23 (hash r)
  | .failure i _ => mixHash 29 (hash i)
  | .file s => mixHash 31 (hash s)

instance : Hashable Value := ⟨hashKey⟩

/-- The key under which a table files a value: a double that is an integer becomes that integer. -/
@[inline] def normalKey : Value → Value
  | .num x =>
    match Binary64.toInt64? x with
    | some n => .int n
    | none => .num x
  | v => v

/-- The name of a kind of value. -/
def typeName : Value → String
  | .nil => "nil"
  | .bool _ => "boolean"
  | .int _ | .num _ => "number"
  | .str _ => "string"
  | .table _ => "table"
  | .closure _ | .native _ => "function"
  | .thread _ => "thread"
  | .failure _ _ | .file _ => "userdata"

/-- The name of a kind of value where integers are told from other numbers. -/
def hostTypeName : Value → String
  | .int _ => "integer"
  | .failure _ _ => "error"
  | v => v.typeName

/-- The text of a double. It shows that the number is no integer. -/
def floatText (x : Float) : String :=
  let s := FloatFormat.shortest14 x
  if s.all fun c => c.isDigit || c == '-' then s ++ ".0" else s

/-- The text of a number. -/
def numeralText : Numeral → String
  | .int n => toString n.toInt
  | .double x => floatText x

/-- The string that a value is or, for a number, is written as. -/
def asString? : Value → Option Bytes
  | .str s => some s
  | .int n => some (toString n.toInt).toUTF8
  | .num x => some (floatText x).toUTF8
  | _ => none

/-- The number that a value is or, for a string, spells. -/
def asNumeral? : Value → Option Numeral
  | .int n => some (.int n)
  | .num x => some (.double x)
  | .str s => Numeral.read? s
  | _ => none

/-- The value is a string or a number, which can be joined to a string. -/
@[inline] def canConcat : Value → Bool
  | .str _ | .int _ | .num _ => true
  | _ => false

/-- The value can be called without a metamethod. -/
@[inline] def isFunction : Value → Bool
  | .closure _ | .native _ => true
  | _ => false

end Value

end PixelHost.Lua
