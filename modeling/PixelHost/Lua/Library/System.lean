import PixelHost.Lua.Library.Base

/-!
# The libraries that reach outside

The functions of `os`, `io` and `package`, and `require`. Only the code that prepares an interpreter
sees them. A machine has a clock and an output; it has no files, no environment and no other
programs, and a request for one of them fails as if it did not exist.

## Main definitions

* `Lua.Library.System.run` — carries out a function of these libraries.
* `Lua.Library.System.daysBefore` — the day number of a date.
-/

namespace PixelHost.Lua.Library.System

open Run

/-- The number of days from the first of January 1970 to the first day of a month. Months before
the first and after the last one count in the neighbouring years. -/
def daysBefore (year month : Int) : Int :=
  let months := year * 12 + (month - 3)
  let y := Int.fdiv months 12
  let m := Int.fmod months 12
  365 * y + Int.fdiv y 4 - Int.fdiv y 100 + Int.fdiv y 400 + (153 * m + 2) / 5 - 719468

/-- A field of a table that describes a time. -/
def timeField (t : Table) (name : String) (absent : Option Int) : Run Int := do
  match (t.getStr name.toUTF8).asNumeral?.bind Arith.toInt64? with
  | some n => return n.toInt
  | none =>
    match t.getStr name.toUTF8, absent with
    | .nil, some n => return n
    | .nil, none => fail s!"field '{name}' missing in date table"
    | _, _ => fail s!"field '{name}' is not an integer"

/-- The number of seconds up to a time. -/
def timeOf (t : Table) : Run Int64 := do
  let year ← timeField t "year" none
  let month ← timeField t "month" none
  let day ← timeField t "day" none
  let hour ← timeField t "hour" (some 12)
  let minute ← timeField t "min" (some 0)
  let second ← timeField t "sec" (some 0)
  let days := daysBefore year month + day - 1
  return Int64.ofInt (((days * 24 + hour) * 60 + minute) * 60 + second)

/-- The results of an operation on a file that does not exist. -/
def noFile (name : Bytes) : Array Value :=
  #[.nil, .str (name ++ ": No such file or directory".toUTF8), .int 2]

/-- Prints values that must be strings or numbers. -/
def writeAll (args : Args) : Run Unit := do
  for i in [0:args.size] do write (← args.string (i + 1))

/-- A loaded library. -/
def requireLoaded (args : Args) : Run (Array Value) := do
  let name ← args.string 1
  let v ← rawGet (← get).loaded (.str name)
  if v.truthy then return #[v, .ofString ":loaded:"]
  else
    raiseAtCaller ("module '".toUTF8 ++ name ++ "' not found:\n\tno field package.preload['".toUTF8 ++
      name ++ "']".toUTF8)

/-- Carries out a function of these libraries. -/
def run (f : SystemFn) (args : Args) : Run (Array Value) := do
  match f with
  | .clock => return #[.num ((← get).clock.toFloat / 1000)]
  | .date =>
    let format ← args.stringOr 1 "%c".toUTF8
    return #[.str format]
  | .difftime => return #[.num ((← args.number 1) - (← args.number 2))]
  | .execute =>
    if args.isNone 1 then return #[.bool false]
    else return #[.nil, .ofString "exit", .int 1]
  | .exit => fail "the host cannot be left"
  | .getenv =>
    discard (args.string 1)
    return #[.nil]
  | .remove => return noFile (← args.string 1)
  | .rename =>
    discard (args.string 2)
    return noFile (← args.string 1)
  | .setlocale => return #[if args.isNone 1 then .ofString "C" else .nil]
  | .time =>
    if args.isNone 1 then return #[.ofNat ((← get).clock / 1000)]
    else return #[.int (← timeOf (← tableAt (← args.table 1)))]
  | .tmpname => fail "unable to generate a unique filename"
  | .ioClose | .ioFlush => return #[.bool true]
  | .ioInput => return #[.file "stdin"]
  | .ioOutput => return #[.file "stdout"]
  | .ioLines | .ioRead => return #[.nil]
  | .ioOpen => return noFile (← args.string 1)
  | .ioPopen => fail "'popen' not supported"
  | .ioTmpfile => return #[.nil, .ofString "No such file or directory", .int 2]
  | .ioType =>
    match ← args.any 1 with
    | .file _ => return #[.ofString "file"]
    | _ => return #[.nil]
  | .ioWrite =>
    writeAll args
    return #[.file "stdout"]
  | .loadlib => return #[.nil, .ofString "dynamic libraries not enabled", .ofString "absent"]
  | .searchpath =>
    let name ← args.string 1
    return #[.nil, .str ("no file '".toUTF8 ++ name ++ "'".toUTF8)]
  | .require => requireLoaded args

end PixelHost.Lua.Library.System
