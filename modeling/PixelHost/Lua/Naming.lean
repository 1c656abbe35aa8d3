import PixelHost.Lua.Machine
import PixelHost.Lua.Token

/-!
# Names in error messages

A message about a value says where the program took it from, as far as the code tells: a local
variable, a captured variable, a global name, a field, a method or a constant. The code before the
failing instruction is searched for the last one that set the register, unless a jump may have
skipped it.

## Main definitions

* `Lua.Origin` — where a value was taken from.
* `Lua.Origin.ofRegister?` — the origin of the value in a register.
* `Lua.Origin.ofCall?` — the name under which an instruction calls a function.
* `Lua.Run.calleeName?` — the name under which a running function was called.
-/

namespace PixelHost.Lua

/-- Where a value was taken from. -/
structure Origin where
  kind : String
  name : Bytes

namespace Origin

/-- The origin between brackets, after a blank. -/
def text (o : Origin) : Bytes :=
  " (".toUTF8 ++ o.kind.toUTF8 ++ " ".toUTF8 ++ Token.quoted o.name ++ ")".toUTF8

/-- The origin of a value in a message, nothing if it is not known. -/
def textOf (o : Option Origin) : Bytes :=
  match o with
  | some o => o.text
  | none => .empty

/-- The register that an instruction sets, for those that set just one. -/
def destination? : Instr → Option Nat
  | .move a _ | .load a _ | .loadFalseSkip a | .getUpvalue a _ | .getUpField a _ _
  | .getIndex a _ _ | .getInt a _ _ | .getField a _ _ | .newTable a _ _ | .self a _ _
  | .arith _ a _ _ | .unary _ a _ | .not a _ | .concat a _ | .testSet a _ _ | .forLoop a _
  | .forPrep a _ | .closure a _ | .vararg a _ => some a
  | .varargPrep => some 0
  | _ => none

/-- An instruction may change a register. -/
def changes (i : Instr) (register : Nat) : Bool :=
  match i with
  | .loadNil a n => a ≤ register && register < a + n
  | .genericCall a _ => register ≥ a + 2
  | .call a _ _ | .tailCall a _ => register ≥ a
  | i => destination? i == some register

/-- The last instruction before a position that set a register, unless it may have been skipped. -/
def setterOf? (p : Prototype) (last register : Nat) : Option Nat :=
  go 0 0 none last
where
  go (pc target : Nat) (found : Option Nat) : Nat → Option Nat
    | 0 => found
    | n + 1 =>
      match p.code.getD pc .varargPrep with
      | .jump destination =>
        let target := if destination ≤ last && destination > target then destination else target
        go (pc + 1) target found n
      | i =>
        let found := if changes i register then (if pc < target then none else some pc) else found
        go (pc + 1) target found n

/-- The origin of the value in a register before an instruction, following at most `n` copies. -/
def search? (p : Prototype) : (n last register : Nat) → Option Origin
  | 0, _, _ => none
  | n + 1, last, register =>
    match p.localAt? register last with
    | some name => some ⟨"local", name⟩
    | none =>
      match setterOf? p last register with
      | none => none
      | some pc =>
        let upvalueName (u : Nat) : Bytes := (p.upvalues.getD u default).name
        let environment := "_ENV".toUTF8
        let fieldOf (table : Nat) : String :=
          match search? p n pc table with
          | some ⟨"local", name⟩ | some ⟨"upvalue", name⟩ =>
            if name == environment then "global" else "field"
          | _ => "field"
        match p.code.getD pc .varargPrep with
        | .move a b => if b < a then search? p n pc b else none
        | .getUpField _ u key =>
          some ⟨if upvalueName u == environment then "global" else "field", key⟩
        | .getIndex _ t k =>
          let name := match search? p n pc k with
            | some ⟨"constant", name⟩ => name
            | _ => "?".toUTF8
          some ⟨fieldOf t, name⟩
        | .getInt _ _ _ => some ⟨"field", "integer index".toUTF8⟩
        | .getField _ t key => some ⟨fieldOf t, key⟩
        | .getUpvalue _ u => some ⟨"upvalue", upvalueName u⟩
        | .load _ (.str s) => some ⟨"constant", s⟩
        | .self _ _ key => some ⟨"method", key⟩
        | _ => none

/-- The origin of the value in a register at an instruction. -/
def ofRegister? (p : Prototype) (pc register : Nat) : Option Origin :=
  search? p (p.code.size + 1) pc register

/-- The name of the metamethod of an arithmetic operator. -/
def arithName : ArithOp → String
  | .add => "add" | .sub => "sub" | .mul => "mul" | .mod => "mod" | .pow => "pow" | .div => "div"
  | .floorDiv => "idiv" | .bitAnd => "band" | .bitOr => "bor" | .bitXor => "bxor"
  | .shiftLeft => "shl" | .shiftRight => "shr"

/-- The name under which an instruction calls a function. -/
def ofCall? (p : Prototype) (pc : Nat) : Option Origin :=
  let method (name : String) : Option Origin := some ⟨"metamethod", name.toUTF8⟩
  match p.code.getD pc .varargPrep with
  | .call a _ _ | .tailCall a _ => ofRegister? p pc a
  | .genericCall _ _ => some ⟨"for iterator", "for iterator".toUTF8⟩
  | .self _ _ _ | .getUpField _ _ _ | .getIndex _ _ _ | .getInt _ _ _ | .getField _ _ _ =>
    method "index"
  | .setUpField _ _ _ | .setIndex _ _ _ | .setInt _ _ _ | .setField _ _ _ => method "newindex"
  | .arith op _ _ _ => method (arithName op)
  | .unary .minus _ _ => method "unm"
  | .unary .bitNot _ _ => method "bnot"
  | .unary .length _ _ => method "len"
  | .concat _ _ => method "concat"
  | .compare .equal _ _ _ => method "eq"
  | .compare .less _ _ _ => method "lt"
  | .compare .lessEqual _ _ _ => method "le"
  | .close _ | .ret _ _ => method "close"
  | _ => none

end Origin

namespace Run

/-- The origin of the value in a register of the running function. -/
def registerOrigin? (r : Nat) : Run (Option Origin) := do
  let m ← get
  match m.frames with
  | ⟨.program f _ _, _, _, _, _, _⟩ :: _ => return Origin.ofRegister? f.proto (m.pc - 1) r
  | _ => return none

/-- The name under which the function of the top activation was called. -/
def calleeName? : Run (Option Origin) := do
  match (← get).frames with
  | callee :: ⟨.program f _ _, _, _, _, _, _⟩ :: _ =>
    if callee.isTail then return none else return Origin.ofCall? f.proto (callee.returnTo - 1)
  | _ => return none

/-- The name of the type of a value; a metatable may give another one. -/
def typeNameOf (v : Value) : Run Bytes := do
  match v with
  | .table _ =>
    match ← metamethod v "__name".toUTF8 with
    | .str name => return name
    | _ => return v.typeName.toUTF8
  | v => return v.typeName.toUTF8

/-- Stops because an operation does not apply to a value. -/
def typeError {α : Type} (v : Value) (operation : String) (origin : Option Origin) : Run α := do
  raiseHere ("attempt to ".toUTF8 ++ operation.toUTF8 ++ " a ".toUTF8 ++ (← typeNameOf v) ++
    " value".toUTF8 ++ Origin.textOf origin)

/-- Stops because an argument of the running library function is not as it must be. The object of a
method call does not count among the arguments. -/
def badArgument {α : Type} (position : Nat) (what : Bytes) : Run α := do
  let wording (n : Nat) (name : Bytes) : Bytes :=
    s!"bad argument #{n} to '".toUTF8 ++ name ++ "' (".toUTF8 ++ what ++ ")".toUTF8
  match ← calleeName? with
  | some ⟨"method", name⟩ =>
    if position ≤ 1 then
      raiseAtCaller ("calling '".toUTF8 ++ name ++ "' on bad self (".toUTF8 ++ what ++ ")".toUTF8)
    else raiseAtCaller (wording (position - 1) name)
  | some ⟨_, name⟩ => raiseAtCaller (wording position name)
  | none =>
    let name := match (← get).frames with
      | ⟨.native f _, _, _, _, _, _⟩ :: _ => f.qualifiedName?
      | _ => none
    raiseAtCaller (wording position (name.getD "?").toUTF8)

/-- Stops because an argument of the running library function has another type. -/
def badType {α : Type} (args : Array Value) (position : Nat) (expected : String) : Run α := do
  let got ← match args[position - 1]? with
    | some v => typeNameOf v
    | none => pure "no value".toUTF8
  badArgument position (expected.toUTF8 ++ " expected, got ".toUTF8 ++ got)

end Run

end PixelHost.Lua
