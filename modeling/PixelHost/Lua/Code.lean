import PixelHost.Bytes

/-!
# Code

A function of a program is compiled to a sequence of instructions on numbered registers. Operands
are registers or literals; the instructions that may fail carry enough for a message to name the
variable at fault (`PixelHost.Lua.Naming`).

## Main definitions

* `Lua.Instr` — the instructions.
* `Lua.Prototype` — the code of one function with what is known of it at compile time.
-/

namespace PixelHost.Lua

/-- The arithmetic and bitwise operators with two operands. -/
inductive ArithOp where
  | add | sub | mul | mod | pow | div | floorDiv | bitAnd | bitOr | bitXor | shiftLeft | shiftRight
  deriving DecidableEq, Repr, Inhabited

/-- The operators with one operand that may fail. -/
inductive UnaryOp where
  | minus | bitNot | length
  deriving DecidableEq, Repr, Inhabited

/-- The comparisons that code can test. -/
inductive CompareOp where
  | equal | less | lessEqual
  deriving DecidableEq, Repr, Inhabited

/-- The values that can be written in a source text. -/
inductive Literal where
  | nil
  | bool (b : Bool)
  | int (n : Int64)
  | num (x : Float)
  | str (s : Bytes)
  deriving DecidableEq, Inhabited

/-- An operand: a register or a literal. -/
inductive Operand where
  | reg (r : Nat)
  | lit (l : Literal)
  deriving DecidableEq, Inhabited

/-- The instructions. A destination comes first. A count that is `none` stands for all values up to
the end of the values last produced. Jump targets are absolute. -/
inductive Instr where
  | move (a b : Nat)
  | load (a : Nat) (l : Literal)
  | loadFalseSkip (a : Nat)
  | loadNil (a count : Nat)
  | getUpvalue (a u : Nat)
  | setUpvalue (u a : Nat)
  | getUpField (a u : Nat) (key : Bytes)
  | getIndex (a table key : Nat)
  | getInt (a table : Nat) (key : Int64)
  | getField (a table : Nat) (key : Bytes)
  | setUpField (u : Nat) (key : Bytes) (value : Operand)
  | setIndex (table key : Nat) (value : Operand)
  | setInt (table : Nat) (key : Int64) (value : Operand)
  | setField (table : Nat) (key : Bytes) (value : Operand)
  | newTable (a arraySize hashSize : Nat)
  | self (a object : Nat) (key : Bytes)
  | arith (op : ArithOp) (a : Nat) (x y : Operand)
  | unary (op : UnaryOp) (a b : Nat)
  | not (a b : Nat)
  | concat (a count : Nat)
  | close (a : Nat)
  | toBeClosed (a : Nat)
  | jump (target : Nat)
  | compare (op : CompareOp) (x y : Operand) (expected : Bool)
  | test (a : Nat) (expected : Bool)
  | testSet (a b : Nat) (expected : Bool)
  | call (a : Nat) (args results : Option Nat)
  | tailCall (a : Nat) (args : Option Nat)
  | ret (a : Nat) (count : Option Nat)
  | forLoop (a target : Nat)
  | forPrep (a target : Nat)
  | genericPrep (a target : Nat)
  | genericCall (a count : Nat)
  | genericLoop (a target : Nat)
  | setList (a : Nat) (count : Option Nat) (offset : Nat)
  | closure (a index : Nat)
  | vararg (a : Nat) (count : Option Nat)
  | varargPrep
  deriving DecidableEq, Inhabited

/-- The size of the string that an operand is. -/
def Operand.textSize : Operand → Nat
  | .lit (.str s) => s.size
  | _ => 0

/-- The size of the strings in an instruction. -/
def Instr.textSize : Instr → Nat
  | .load _ (.str s) => s.size
  | .getUpField _ _ key | .getField _ _ key | .self _ _ key => key.size
  | .setUpField _ key x | .setField _ key x => key.size + x.textSize
  | .setIndex _ _ x | .setInt _ _ x => x.textSize
  | .arith _ _ x y | .compare _ x y _ => x.textSize + y.textSize
  | _ => 0

/-- Whether a variable can be assigned, and how it is closed. -/
inductive VariableKind where
  | regular
  | constant
  | toBeClosed
  | compileTime
  deriving DecidableEq, Repr, Inhabited

/-- Where a closure takes a captured variable from: a register of the function around it, or a
variable that function captured itself. -/
structure UpvalueSource where
  name : Bytes
  fromRegister : Bool
  index : Nat
  kind : VariableKind
  deriving DecidableEq, Inhabited

/-- A local variable in a register while the instruction counter is in a range. -/
structure LocalRange where
  name : Bytes
  register : Nat
  first : Nat
  last : Nat
  deriving DecidableEq, Inhabited

/-- The code of one function. `lines` gives the source line of each instruction. -/
structure Prototype where
  code : Array Instr := #[]
  lines : Array Nat := #[]
  children : Array Prototype := #[]
  upvalues : Array UpvalueSource := #[]
  locals : Array LocalRange := #[]
  parameters : Nat := 0
  isVararg : Bool := false
  frameSize : Nat := 2
  lineDefined : Nat := 0
  chunk : Bytes := .empty
  /-- The memory that the code takes. -/
  bytes : Nat := 0

instance : Inhabited Prototype := ⟨{}⟩

namespace Prototype

/-- The memory that the code takes, with that of the functions in it. -/
def measure (p : Prototype) : Nat :=
  let code := p.code.foldl (fun n i => n + 9 + i.textSize) 200
  p.children.foldl (fun n child => n + child.bytes) (code + 16 * p.locals.size)

/-- The line of an instruction, `0` if it is not known. -/
def lineAt (p : Prototype) (pc : Nat) : Nat := p.lines.getD pc 0

/-- The name of the local variable that a register holds at an instruction. -/
def localAt? (p : Prototype) (register pc : Nat) : Option Bytes :=
  (p.locals.find? fun v => v.register == register && v.first ≤ pc && pc < v.last).map (·.name)

end Prototype

end PixelHost.Lua
