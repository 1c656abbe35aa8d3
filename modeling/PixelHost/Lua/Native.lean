/-!
# Library functions

The functions that are not written in the script language, as an enumeration. What each one does is
said where its library is implemented; this module only names them, so that a value of the language
can hold one.

## Main definitions

* `Lua.BaseFn`, `Lua.StringFn`, `Lua.TableFn`, `Lua.MathFn`, `Lua.Utf8Fn`, `Lua.CoroutineFn` — the
  functions of a library.
* `Lua.SystemFn` — the functions that reach outside of the interpreter.
* `Lua.EffectFn` — the functions that the host adds for light effects.
* `Lua.Native` — any of them.
-/

namespace PixelHost.Lua

/-- The functions that are global. -/
inductive BaseFn where
  | assert | collectgarbage | dofile | error | getmetatable | ipairs | load | loadfile | next
  | pairs | pcall | print | rawequal | rawget | rawlen | rawset | select | setmetatable | tonumber
  | tostring | type | warn | xpcall
  deriving DecidableEq, Repr, Inhabited

/-- The functions of `string`. -/
inductive StringFn where
  | byte | char | dump | find | format | gmatch | gsub | len | lower | match | pack | packsize | rep
  | reverse | sub | unpack | upper
  deriving DecidableEq, Repr, Inhabited

/-- The arithmetic operators that strings answer to. -/
inductive StringArith where
  | add | sub | mul | mod | pow | div | idiv | unm
  deriving DecidableEq, Repr, Inhabited

/-- The functions of `table`. -/
inductive TableFn where
  | concat | insert | move | pack | remove | sort | unpack
  deriving DecidableEq, Repr, Inhabited

/-- The functions of `math`. -/
inductive MathFn where
  | abs | acos | asin | atan | ceil | cos | cosh | deg | exp | floor | fmod | frexp | ldexp | log
  | log10 | max | min | modf | pow | rad | random | randomseed | sin | sinh | sqrt | tan | tanh
  | tointeger | type | ult
  deriving DecidableEq, Repr, Inhabited

/-- The functions of `utf8`. -/
inductive Utf8Fn where
  | char | codepoint | codes | len | offset
  deriving DecidableEq, Repr, Inhabited

/-- The functions of `coroutine`. -/
inductive CoroutineFn where
  | close | create | isyieldable | resume | running | status | wrap | yield
  deriving DecidableEq, Repr, Inhabited

/-- The functions of `os`, `io` and `package`, and `require`. -/
inductive SystemFn where
  | clock | date | difftime | execute | exit | getenv | remove | rename | setlocale | time | tmpname
  | ioClose | ioFlush | ioInput | ioLines | ioOpen | ioOutput | ioPopen | ioRead | ioTmpfile
  | ioType | ioWrite
  | loadlib | searchpath | require
  deriving DecidableEq, Repr, Inhabited

/-- The functions that the host adds for light effects. -/
inductive EffectFn where
  | hsv | gradient | noise | timestamp
  deriving DecidableEq, Repr, Inhabited

/-- A function that is not written in the script language. -/
inductive Native where
  | base (f : BaseFn)
  | string (f : StringFn)
  | stringArith (f : StringArith)
  | table (f : TableFn)
  | math (f : MathFn)
  | utf8 (f : Utf8Fn)
  | coroutine (f : CoroutineFn)
  | system (f : SystemFn)
  | effect (f : EffectFn)
  /-- The step of an iteration over a sequence. -/
  | sequenceStep
  /-- The step of an iteration over the characters of a text; `lax` ones may be too large. -/
  | characterStep (lax : Bool)
  /-- The step of an iteration over the matches of a pattern, by the place of its state. -/
  | matchStep (state : Nat)
  /-- The continuation of a coroutine. -/
  | wrapped (thread : Nat)
  /-- Puts an error value into the form in which the host reports it. -/
  | describeError
  deriving DecidableEq, Repr, Inhabited

namespace BaseFn

/-- All global functions with their names. -/
def all : List (String × BaseFn) := [
  ("assert", .assert), ("collectgarbage", .collectgarbage), ("dofile", .dofile), ("error", .error),
  ("getmetatable", .getmetatable), ("ipairs", .ipairs), ("load", .load), ("loadfile", .loadfile),
  ("next", .next), ("pairs", .pairs), ("pcall", .pcall), ("print", .print),
  ("rawequal", .rawequal), ("rawget", .rawget), ("rawlen", .rawlen), ("rawset", .rawset),
  ("select", .select), ("setmetatable", .setmetatable), ("tonumber", .tonumber),
  ("tostring", .tostring), ("type", .type), ("warn", .warn), ("xpcall", .xpcall)]

end BaseFn

namespace StringFn

/-- All functions of `string` with their names. -/
def all : List (String × StringFn) := [
  ("byte", .byte), ("char", .char), ("dump", .dump), ("find", .find), ("format", .format),
  ("gmatch", .gmatch), ("gsub", .gsub), ("len", .len), ("lower", .lower), ("match", .match),
  ("pack", .pack), ("packsize", .packsize), ("rep", .rep), ("reverse", .reverse), ("sub", .sub),
  ("unpack", .unpack), ("upper", .upper)]

end StringFn

namespace StringArith

/-- All arithmetic operators of strings with the names of their metamethods. -/
def all : List (String × StringArith) := [
  ("__add", .add), ("__sub", .sub), ("__mul", .mul), ("__mod", .mod), ("__pow", .pow),
  ("__div", .div), ("__idiv", .idiv), ("__unm", .unm)]

end StringArith

namespace TableFn

/-- All functions of `table` with their names. -/
def all : List (String × TableFn) := [
  ("concat", .concat), ("insert", .insert), ("move", .move), ("pack", .pack),
  ("remove", .remove), ("sort", .sort), ("unpack", .unpack)]

end TableFn

namespace MathFn

/-- All functions of `math` with their names. -/
def all : List (String × MathFn) := [
  ("abs", .abs), ("acos", .acos), ("asin", .asin), ("atan", .atan), ("ceil", .ceil),
  ("cos", .cos), ("cosh", .cosh), ("deg", .deg), ("exp", .exp), ("floor", .floor),
  ("fmod", .fmod), ("frexp", .frexp), ("ldexp", .ldexp), ("log", .log), ("log10", .log10),
  ("max", .max), ("min", .min), ("modf", .modf), ("pow", .pow), ("rad", .rad),
  ("random", .random), ("randomseed", .randomseed), ("sin", .sin), ("sinh", .sinh),
  ("sqrt", .sqrt), ("tan", .tan), ("tanh", .tanh), ("tointeger", .tointeger), ("type", .type),
  ("ult", .ult)]

end MathFn

namespace Utf8Fn

/-- All functions of `utf8` with their names. -/
def all : List (String × Utf8Fn) := [
  ("char", .char), ("codepoint", .codepoint), ("codes", .codes), ("len", .len),
  ("offset", .offset)]

end Utf8Fn

namespace CoroutineFn

/-- All functions of `coroutine` with their names. -/
def all : List (String × CoroutineFn) := [
  ("close", .close), ("create", .create), ("isyieldable", .isyieldable), ("resume", .resume),
  ("running", .running), ("status", .status), ("wrap", .wrap), ("yield", .yield)]

end CoroutineFn

namespace SystemFn

/-- The functions of `os` with their names. -/
def ofOs : List (String × SystemFn) := [
  ("clock", .clock), ("date", .date), ("difftime", .difftime), ("execute", .execute),
  ("exit", .exit), ("getenv", .getenv), ("remove", .remove), ("rename", .rename),
  ("setlocale", .setlocale), ("time", .time), ("tmpname", .tmpname)]

/-- The functions of `io` with their names. -/
def ofIo : List (String × SystemFn) := [
  ("close", .ioClose), ("flush", .ioFlush), ("input", .ioInput), ("lines", .ioLines),
  ("open", .ioOpen), ("output", .ioOutput), ("popen", .ioPopen), ("read", .ioRead),
  ("tmpfile", .ioTmpfile), ("type", .ioType), ("write", .ioWrite)]

/-- The functions of `package` with their names. -/
def ofPackage : List (String × SystemFn) := [("loadlib", .loadlib), ("searchpath", .searchpath)]

end SystemFn

namespace EffectFn

/-- All light effects with their names. -/
def all : List (String × EffectFn) := [
  ("hsv", .hsv), ("gradient", .gradient), ("noise", .noise), ("timestamp", .timestamp)]

end EffectFn

namespace Native

/-- The name by which the loaded libraries know a function, if they do. -/
def qualifiedName? (f : Native) : Option String :=
  let find {α : Type} [BEq α] (library : String) (table : List (String × α)) (g : α) :
      Option String :=
    (table.find? (·.2 == g)).map fun (name, _) => library ++ name
  match f with
  | .base g => find "" BaseFn.all g
  | .string g => find "string." StringFn.all g
  | .table g => find "table." TableFn.all g
  | .math g => find "math." MathFn.all g
  | .utf8 g => find "utf8." Utf8Fn.all g
  | .coroutine g => find "coroutine." CoroutineFn.all g
  | .system .require => some "require"
  | .system g =>
    (find "os." SystemFn.ofOs g).or
      ((find "io." SystemFn.ofIo g).or (find "package." SystemFn.ofPackage g))
  | .effect g => find "" EffectFn.all g
  | _ => none

end Native

end PixelHost.Lua
