/-!
# Help

## Main definitions

* `Cli.helpText` — what the program tells about its command line.
* `Cli.versionText` — what it tells about its version.
-/

namespace PixelHost.Cli

/-- What the program tells about its command line. -/
def helpText : String := "\n".intercalate [
  "Run uploaded Lua programs that drive an LED strip",
  "",
  "Usage: ledsand [OPTIONS] <DEVICE> <PORT> <MOUNT>",
  "",
  "Arguments:",
  "  <DEVICE>  Serial device the frames are written to ('-' discards frames)",
  "  <PORT>    TCP port for uploads and status requests",
  "  <MOUNT>   HTTP mount path for the status endpoints",
  "",
  "Options:",
  "      --host <HOST>            Address to listen on [default: 0.0.0.0]",
  "      --config <PATH>          Settings file (default: <config dir>/ledsand/settings.toml)",
  "      --bootstrap <PATH>       Lua file run once before sandboxing",
  "      --max-clients <N>        Concurrent upload connections",
  "      --examples-dir <DIR>     Directory listed by the examples endpoint",
  "      --memory-budget <BYTES>  Bytes available to scripts above the bootstrap baseline",
  "  -v, --verbose...             More logging (-v debug, -vv trace)",
  "  -q, --quiet                  Only warnings and errors",
  "  -h, --help                   Print help",
  "  -V, --version                Print version",
  "",
  "Examples:",
  "  ledsand /dev/ttyACM0 8000 /",
  "  ledsand - 8000 /leds --bootstrap init.lua -v",
  "",
  "Upload a script over WebSocket at ws://HOST:PORT/. Status endpoints:",
  "  GET <MOUNT>/code       current program source",
  "  GET <MOUNT>/examples   example script names",
  "  GET <MOUNT>/status     JSON status and counters",
  ""]

/-- The number of the version. -/
def version : String := "0.3.0"

/-- What the program tells about its version; more if `long`. -/
def versionText (long : Bool) : String :=
  let head := s!"ledsand {version}"
  if long then "\n".intercalate [head, s!"engine:  ledsand-engine {version}", "lua:     5.4", ""]
  else head ++ "\n"

end PixelHost.Cli
