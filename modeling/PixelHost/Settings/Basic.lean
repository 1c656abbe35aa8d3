import PixelHost.Delay

/-!
# Settings

What the server can be told at its start, with the values that hold where nothing is said, and the
conditions that settings must meet.

A source of settings, a file or a command line, gives some of them; a setting replaces the value
that its field has. So the settings that are in force are found field by field: the command line,
else the file, else the built-in value.

## Main definitions

* `Settings` — a value for each field.
* `Setting` — a value for one field, and `Settings.ofList`.
* `Overrides` — what a command line gives.
* `Settings.violation?` — the first condition that settings do not meet.
-/

namespace PixelHost

/-- A value for each field. -/
structure Settings where
  /-- The number of pixels; a frame has three bytes for each. -/
  pixelCount : Nat := 300
  /-- The bytes that scripts may take beyond what the bootstrap script has taken. -/
  memoryBudget : Nat := 4194304
  /-- The greatest length of an upload in bytes. -/
  maxUpload : Nat := 1048576
  /-- The longest uninterrupted sleep of the scheduler, in milliseconds. -/
  quantumMs : Nat := 20
  /-- The delay of the scheduler before the first upload, in milliseconds. -/
  initialDelayMs : Nat := 1000
  /-- The number of replies that may wait in a connection. -/
  outboxDepth : Nat := 20
  /-- The number of upload connections at a time. -/
  maxClients : Nat := 8
  /-- The speed of the serial line. -/
  baud : Nat := 115200
  /-- The directory that the examples endpoint lists. -/
  examplesDir : String := "scripts"
  /-- The file that is run before scripts are confined. -/
  bootstrap : Option String := none
  /-- The number of instructions of an invocation; zero for no limit. -/
  instructionLimit : Nat := 0
  deriving DecidableEq, Repr, Inhabited

/-- A value for one field. -/
inductive Setting where
  | pixelCount (n : Nat)
  | memoryBudget (n : Nat)
  | maxUpload (n : Nat)
  | quantumMs (n : Nat)
  | initialDelayMs (n : Nat)
  | outboxDepth (n : Nat)
  | maxClients (n : Nat)
  | baud (n : Nat)
  | examplesDir (path : String)
  | bootstrap (path : String)
  | instructionLimit (n : Nat)
  deriving DecidableEq, Repr, Inhabited

namespace Settings

/-- The settings with a value for one field. -/
def set (s : Settings) : Setting → Settings
  | .pixelCount n => { s with pixelCount := n }
  | .memoryBudget n => { s with memoryBudget := n }
  | .maxUpload n => { s with maxUpload := n }
  | .quantumMs n => { s with quantumMs := n }
  | .initialDelayMs n => { s with initialDelayMs := n }
  | .outboxDepth n => { s with outboxDepth := n }
  | .maxClients n => { s with maxClients := n }
  | .baud n => { s with baud := n }
  | .examplesDir path => { s with examplesDir := path }
  | .bootstrap path => { s with bootstrap := some path }
  | .instructionLimit n => { s with instructionLimit := n }

/-- The settings with values for some fields. -/
def ofList (values : List Setting) : Settings := values.foldl set {}

/-- The longest uninterrupted sleep of the scheduler. -/
def quantum (s : Settings) : Duration := .ofMillis s.quantumMs

end Settings

/-! ### Command lines -/

/-- What a command line gives. -/
structure Overrides where
  bootstrap : Option String := none
  maxClients : Option Nat := none
  examplesDir : Option String := none
  memoryBudget : Option Nat := none
  deriving DecidableEq, Repr, Inhabited

/-- The settings that a command line gives. -/
def Overrides.values (o : Overrides) : List Setting :=
  (o.bootstrap.map .bootstrap).toList ++ (o.maxClients.map .maxClients).toList
    ++ (o.examplesDir.map .examplesDir).toList ++ (o.memoryBudget.map .memoryBudget).toList

/-- The settings with those that a command line gives. -/
def Settings.override (s : Settings) (o : Overrides) : Settings := o.values.foldl Settings.set s

/-! ### Conditions -/

/-- The least memory that scripts can be given. -/
def Settings.minMemoryBudget : Nat := 64 * 1024

/-- A condition that settings do not meet. -/
inductive Violation where
  /-- A field that must not be zero is. -/
  | zero (field : String)
  /-- Scripts would have too little memory. -/
  | smallBudget (bytes : Nat)
  deriving DecidableEq, Repr, Inhabited

/-- The text of a violation. -/
def Violation.text : Violation → String
  | zero field => s!"{field} must be at least 1"
  | smallBudget bytes =>
    s!"memory_budget must be at least {Settings.minMemoryBudget} bytes, got {bytes}"

/-- The first condition that the settings do not meet. -/
def Settings.violation? (s : Settings) : Option Violation :=
  if s.pixelCount = 0 then some (.zero "pixel_count")
  else if s.quantumMs = 0 then some (.zero "quantum_ms")
  else if s.outboxDepth = 0 then some (.zero "outbox_depth")
  else if s.maxUpload = 0 then some (.zero "max_upload")
  else if s.memoryBudget < Settings.minMemoryBudget then some (.smallBudget s.memoryBudget)
  else none

end PixelHost
