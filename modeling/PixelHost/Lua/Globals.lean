import PixelHost.Lua.Execution

/-!
# Global names

The names that a fresh interpreter knows: the global functions and the tables of the libraries.

## Main definitions

* `Lua.Run.installLibraries` — gives a machine its global names.
* `Lua.Machine.fresh` — a machine that knows the libraries.
-/

namespace PixelHost.Lua

/-- The functions of a library by name. -/
def functionFields {α : Type} (wrap : α → Native) (functions : List (String × α)) :
    List (String × Value) :=
  functions.map fun (name, f) => (name, .native (wrap f))

/-- The constants of `math`. -/
def mathConstants : List (String × Value) := [
  ("pi", .num 3.141592653589793),
  ("huge", .num (1 / 0)),
  ("maxinteger", .int Int64.maxValue),
  ("mininteger", .int Int64.minValue)]

/-- A pattern that matches one character of a text in UTF-8. -/
def characterPattern : Bytes :=
  ⟨#[91, 0, 45, 0x7f, 0xc2, 45, 0xfd, 93, 91, 0x80, 45, 0xbf, 93, 42]⟩

/-- The contents of `package`. -/
def packageFields : List (String × Value) :=
  functionFields Native.system SystemFn.ofPackage ++ [
    ("config", .ofString "/\n;\n?\n!\n-\n"),
    ("cpath", .ofString "/usr/local/lib/lua/5.4/?.so;/usr/local/lib/lua/5.4/loadall.so;./?.so"),
    ("path", .ofString
      ("/usr/local/share/lua/5.4/?.lua;/usr/local/share/lua/5.4/?/init.lua;" ++
        "/usr/local/lib/lua/5.4/?.lua;/usr/local/lib/lua/5.4/?/init.lua;./?.lua;./?/init.lua"))]

/-- The libraries with their contents. -/
def libraries : List (String × List (String × Value)) := [
  ("string", functionFields Native.string StringFn.all),
  ("table", functionFields Native.table TableFn.all),
  ("math", functionFields Native.math MathFn.all ++ mathConstants),
  ("utf8", functionFields Native.utf8 Utf8Fn.all ++ [("charpattern", .str characterPattern)]),
  ("coroutine", functionFields Native.coroutine CoroutineFn.all),
  ("os", functionFields Native.system SystemFn.ofOs),
  ("io", functionFields Native.system SystemFn.ofIo ++ [
    ("stdin", .file "stdin"), ("stdout", .file "stdout"), ("stderr", .file "stderr")]),
  ("package", packageFields)]

namespace Run

/-- Assigns a field of a table. -/
def setField (r : TableRef) (name : String) (v : Value) : Run Unit := rawSet r (.ofString name) v

/-- Makes the table of a library and gives it a global name. -/
def installLibrary (globals loaded : TableRef) (name : String) (fields : List (String × Value)) :
    Run Unit := do
  let r ← newTable (.ofFields fields)
  setField globals name (.table r)
  setField loaded name (.table r)

/-- Gives a machine its global names. -/
def installLibraries : Run Unit := do
  let globals ← newTable (.ofFields
    (functionFields Native.base BaseFn.all ++ [
      ("_VERSION", .ofString "Lua 5.4"),
      ("require", .native (.system .require))]))
  let loaded ← newTable {}
  let stringMetatable ← newTable (.ofFields (functionFields Native.stringArith StringArith.all))
  modify fun m => { m with globals, loaded, stringMetatable }
  setField globals "_G" (.table globals)
  setField loaded "_G" (.table globals)
  for (name, fields) in libraries do installLibrary globals loaded name fields
  setField stringMetatable "__index" (← rawGet globals (.ofString "string"))
  let package ← rawGet globals (.ofString "package")
  match package with
  | .table package =>
    setField package "loaded" (.table loaded)
    setField package "preload" (.table (← newTable {}))
    setField package "searchers" (.table (← newTable {}))
  | _ => return

end Run

/-- A machine that knows the libraries. -/
def Machine.fresh (clock : Nat) : Machine :=
  match Run.installLibraries { clock } with
  | .ok _ m | .error _ m => m

end PixelHost.Lua
