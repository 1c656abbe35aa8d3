import PixelHost.Lua.Library.Base
import PixelHost.Lua.Library.Characters
import PixelHost.Lua.Library.Coroutines
import PixelHost.Lua.Library.Effects
import PixelHost.Lua.Library.Maths
import PixelHost.Lua.Library.Strings
import PixelHost.Lua.Library.System
import PixelHost.Lua.Library.Tables

/-!
# Library functions at work

Which library carries out a function that is not written in the script language.

## Main definitions

* `Lua.Native.run` — the results of a library function.
-/

namespace PixelHost.Lua

/-- The text of an error value for those outside of the script. A failure of the host stays what
it is. -/
def describe (c : Caller) (v : Value) : Run Value := do
  match v with
  | .failure _ _ => return v
  | v => return .str (← c.textOf v)

/-- The results of a library function. -/
def Native.run (c : Caller) (f : Native) (args : Args) : Run (Array Value) := do
  match f with
  | .base f => Library.Base.run c f args
  | .string f => Library.Strings.run c f args
  | .stringArith f => Library.Strings.arith c f args
  | .table f => Library.Tables.run c f args
  | .math f => Library.Maths.run c f args
  | .utf8 f => Library.Characters.run f args
  | .coroutine f => Library.Coroutines.run c f args
  | .system f => Library.System.run f args
  | .effect f => Library.Effects.run f args
  | .sequenceStep => Library.Base.sequenceStep c args
  | .characterStep lax => Library.Characters.characterStep lax args
  | .matchStep id => Library.Strings.matchStep id
  | .wrapped thread => Library.Coroutines.wrapped c thread args
  | .describeError => return #[← describe c (args.val 1)]

end PixelHost.Lua
