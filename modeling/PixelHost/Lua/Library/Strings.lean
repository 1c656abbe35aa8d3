import PixelHost.Lua.Library.Format
import PixelHost.Lua.Library.Packing
import PixelHost.Lua.Library.Pattern

/-!
# The string library

The functions of `string`. Positions count from one; negative ones count from the end.

## Main definitions

* `Lua.Library.Strings.run` — carries out a function of `string`.
* `Lua.Library.Strings.matchStep` — the next match of an iteration.
* `Lua.Library.Strings.arith` — an arithmetic operator on strings.
-/

namespace PixelHost.Lua.Library.Strings

open Run

/-- The largest size of a string that is made by repetition. -/
def maxSize : Nat := 0x7FFFFFFF

/-- Carries on with the result of matching, or stops with what is wrong with the pattern. -/
def checked {α : Type} (result : Except Pattern.Fault α) : Run α :=
  match result with
  | .ok a => return a
  | .error e => fail e.message

/-- A captured part as a value. -/
def partValue : Pattern.Part → Run Value
  | .text s => newString s
  | .position n => return .ofNat n

/-- The captures of a match as values. -/
def captureValues (s : Bytes) (first last : Nat) (captures : Array Pattern.Capture) :
    Run (Array Value) := do
  let parts ← checked (Pattern.parts s first last captures)
  return (← parts.mapM partValue).toArray

/-- The bytes of a string as numbers. -/
def byte (args : Args) : Run (Array Value) := do
  let s ← args.string 1
  let i ← args.integerOr 2 1
  let first := startPosition i s.size
  let last := endPosition (← args.integerOr 3 i) s.size
  return (Array.range (last + 1 - first)).map fun k => .ofNat (s.at0 (first - 1 + k)).toNat

/-- The string of bytes that are given as numbers. -/
def char (args : Args) : Run (Array Value) := do
  let bytes ← (List.range args.size).mapM fun k => do
    let n ← args.integer (k + 1)
    Args.require (k + 1) (0 ≤ n && n ≤ 255) "value out of range"
    return n.toUInt64.toUInt8
  return #[← newString (Bytes.ofList bytes)]

/-- A string several times in a row, with another one in between. -/
def rep (args : Args) : Run (Array Value) := do
  let s ← args.string 1
  let n ← args.integer 2
  let separator ← args.stringOr 3 .empty
  if n ≤ 0 then return #[.str .empty]
  else
    let n := n.toInt.toNat
    if (s.size + separator.size) * n > maxSize then fail "resulting string too large"
    demand (s.size * n + separator.size * (n - 1))
    let unit := s ++ separator
    return #[← newString ((unit.repeated (n - 1)) ++ s)]

/-- A part of a string. -/
def sub (args : Args) : Run (Array Value) := do
  let s ← args.string 1
  let first := startPosition (← args.integer 2) s.size
  let last := endPosition (← args.integerOr 3 (-1)) s.size
  if first ≤ last then return #[← newString (s.slice (first - 1) last)]
  else return #[.str .empty]

/-- Searches a pattern: its place if `places`, and its captures. -/
def search (args : Args) (places : Bool) : Run (Array Value) := do
  let s ← args.string 1
  let p ← args.string 2
  let start := startPosition (← args.integerOr 3 1) s.size - 1
  if start > s.size then return #[.nil]
  else if places && ((args.val 4).truthy || Pattern.isPlain p) then
    match s.find? p start with
    | some i => return #[.ofNat (i + 1), .ofNat (i + p.size)]
    | none => return #[.nil]
  else
    match ← checked (Pattern.find? s p start) with
    | none => return #[.nil]
    | some (first, last, captures) =>
      if places then
        let values ← if captures.isEmpty then pure #[] else captureValues s first last captures
        return #[.ofNat (first + 1), .ofNat last] ++ values
      else captureValues s first last captures

/-- Begins an iteration over the matches of a pattern. -/
def gmatch (args : Args) : Run (Array Value) := do
  let s ← args.string 1
  let p ← args.string 2
  let start := startPosition (← args.integerOr 3 1) s.size - 1
  let position := if start > s.size then s.size + 1 else start
  charge 300
  let id := (← get).iterations.size
  modify fun m => { m with iterations := m.iterations.push ⟨s, p, position, none⟩ }
  return #[.native (.matchStep id)]

/-- The next match of an iteration that stands at a state. -/
def matchFrom (id : Nat) (state : MatchState) : Run (Array Value) := do
  let tries := state.text.size + 1 - state.position
  let found := Pattern.findFrom state.text state.pattern 0 state.lastEnd state.position tries
  match ← checked found with
  | none => return #[]
  | some (first, last, captures) =>
    let state' := { state with position := last, lastEnd := some last }
    modify fun m => { m with iterations := m.iterations.setIfInBounds id state' }
    captureValues state.text first last captures

/-- The next match of an iteration. -/
def matchStep (id : Nat) : Run (Array Value) := do
  matchFrom id ((← get).iterations.getD id default)

/-- What a value stands for that was given for a match. -/
def replacementText (value : Value) : Run (Option Bytes) := do
  if !value.truthy then return none
  else match value.asString? with
    | some t => return some t
    | none => fail s!"invalid replacement value (a {value.typeName})"

/-- What stands for a match, or nothing if the match stays as it is. -/
def replacementFor (c : Caller) (s : Bytes) (first last : Nat)
    (captures : Array Pattern.Capture) (replacement : Value) : Run (Option Bytes) := do
  let value ← match replacement with
    | .closure _ | .native _ => c.callOne replacement (← captureValues s first last captures)
    | .table _ =>
      let key ← checked (Pattern.part s first last captures 0)
      c.element replacement (← partValue key)
    | v => pure v
  match replacement with
  | .closure _ | .native _ | .table _ => replacementText value
  | v =>
    return some (← checked (Pattern.fill s first last captures (v.asString?.getD .empty)))

/-- A replacement that is under way. -/
structure Replacing where
  position : Nat := 0
  lastEnd : Option Nat := none
  count : Nat := 0
  changed : Bool := false
  result : Bytes := .empty

/-- Replaces at most `limit` matches. Every round but the last moves on in the text. -/
def replaceFrom (c : Caller) (s p : Bytes) (replacement : Value) (limit : Int64) (start : Nat)
    (anchored : Bool) : (rounds : Nat) → Replacing → Run Replacing
  | 0, r => return r
  | n + 1, r => do
    if Int64.ofNat r.count ≥ limit then return r
    let found ← checked (Pattern.match? s p r.position start)
    let accepted := match found with
      | some (last, captures) => if r.lastEnd == some last then none else some (last, captures)
      | none => none
    match accepted with
    | some (last, captures) =>
      let r := { r with count := r.count + 1 }
      let filled ← replacementFor c s r.position last captures replacement
      let shown := filled.getD (s.slice r.position last)
      demand (r.result.size + shown.size)
      let r := { r with
        changed := r.changed || filled.isSome
        result := r.result ++ shown
        position := last
        lastEnd := some last }
      if anchored then return r else replaceFrom c s p replacement limit start anchored n r
    | none =>
      if r.position < s.size then
        let r := { r with
          result := r.result.push (s.at0 r.position)
          position := r.position + 1 }
        if anchored then return r else replaceFrom c s p replacement limit start anchored n r
      else return r

/-- A string with matches replaced, and their number. -/
def gsub (c : Caller) (args : Args) : Run (Array Value) := do
  let s ← args.string 1
  let p ← args.string 2
  let limit ← args.integerOr 4 (Int64.ofNat (s.size + 1))
  match args.val 3 with
  | .int _ | .num _ | .str _ | .table _ | .closure _ | .native _ => pure ()
  | _ => badType args 3 "string/function/table"
  let anchored := Pattern.isAnchored p
  let start := if anchored then 1 else 0
  let r ← replaceFrom c s p (args.val 3) limit start anchored (2 * s.size + 2) {}
  if r.changed then
    return #[← newString (r.result ++ s.dropFirst r.position), .ofNat r.count]
  else return #[.str s, .ofNat r.count]

/-- Changes each byte of a string. -/
def mapBytes (args : Args) (f : UInt8 → UInt8) : Run (Array Value) := do
  let s ← args.string 1
  return #[← newString ⟨s.data.map f⟩]

/-- Carries out a function of `string`. -/
def run (c : Caller) (f : StringFn) (args : Args) : Run (Array Value) := do
  match f with
  | .byte => byte args
  | .char => char args
  | .dump =>
    match ← args.function 1 with
    | .closure _ => return #[← newString (Bytes.ofList [27, 76, 117, 97])]
    | _ => fail "unable to dump given function"
  | .find => search args true
  | .format => Format.run c args
  | .gmatch => gmatch args
  | .gsub => gsub c args
  | .len => return #[.ofNat (← args.string 1).size]
  | .lower => mapBytes args fun b => if 65 ≤ b && b ≤ 90 then b + 32 else b
  | .match => search args false
  | .pack => Packing.pack args
  | .packsize => Packing.size args
  | .rep => rep args
  | .reverse =>
    let s ← args.string 1
    return #[← newString ⟨s.data.reverse⟩]
  | .sub => sub args
  | .unpack => Packing.unpack args
  | .upper => mapBytes args fun b => if 97 ≤ b && b ≤ 122 then b - 32 else b

/-- The arithmetic operator that a string answers to; nothing for negation. -/
def operatorOf : StringArith → Option ArithOp
  | .add => some .add | .sub => some .sub | .mul => some .mul | .mod => some .mod
  | .pow => some .pow | .div => some .div | .idiv => some .floorDiv | .unm => none

/-- The metamethod of an arithmetic operator. -/
def eventOf : StringArith → Bytes
  | .unm => Event.unm
  | f => match operatorOf f with
    | some op => Event.arith op
    | none => .empty

/-- An arithmetic operator on strings that spell numbers; for others the metamethod of the second
operand is called. -/
def arith (c : Caller) (f : StringArith) (args : Args) : Run (Array Value) := do
  let x := args.val 1
  let y := args.val 2
  match x.asNumeral?, y.asNumeral? with
  | some m, some n =>
    let outcome ← match operatorOf f with
      | some op => arithmetic op (.ofNumeral m) (.ofNumeral n) .unknown .unknown
      | none => unary .minus (.ofNumeral m) .unknown
    return #[← c.resolve outcome]
  | _, _ =>
    let isString := y matches .str _
    let h ← if isString then pure .nil else metamethod y (eventOf f)
    if h.isNil then
      fail s!"attempt to perform arithmetic on a {x.typeName} value"
    else return #[← c.callOne h #[x, y]]

end PixelHost.Lua.Library.Strings
