import PixelHost.Cli.Integer
import PixelHost.Settings.Basic

/-!
# Command lines

A command line gives three values by their positions, and options by their names. It is looked at
from the left to the right, and the first fault is reported.

The value of an option may be attached to it or follow it. A value that was read is checked only when
the next argument has been recognised, so an argument that is not known is reported before the value
in front of it.

## Main definitions

* `Cli.Parameter` — what a command line can give.
* `Cli.UsageError` — the faults.
* `Cli.Arguments` — what a complete command line gives.
* `Cli.parse` — reads a command line.
-/

namespace PixelHost.Cli

/-! ### Parameters -/

/-- What a command line can give. -/
inductive Parameter where
  | device
  | port
  | mount
  | host
  | config
  | bootstrap
  | maxClients
  | examplesDir
  | memoryBudget
  | verbose
  | quiet
  | help
  | version
  deriving DecidableEq, Repr, Inhabited

namespace Parameter

/-- The parameters that are given by position. -/
def positional : List Parameter := [device, port, mount]

/-- The options by their long names. -/
def long : List (String × Parameter) := [
  ("host", host), ("config", config), ("bootstrap", bootstrap), ("max-clients", maxClients),
  ("examples-dir", examplesDir), ("memory-budget", memoryBudget), ("verbose", verbose),
  ("quiet", quiet), ("help", help), ("version", version)]

/-- The options by their short names. -/
def short : List (Char × Parameter) :=
  [('v', verbose), ('q', quiet), ('h', help), ('V', version)]

/-- The option has a value. -/
def takesValue : Parameter → Bool
  | verbose | quiet | help | version => false
  | _ => true

/-- How a report shows a parameter. -/
def shown : Parameter → String
  | device => "<DEVICE>"
  | port => "<PORT>"
  | mount => "<MOUNT>"
  | host => "--host <HOST>"
  | config => "--config <PATH>"
  | bootstrap => "--bootstrap <PATH>"
  | maxClients => "--max-clients <N>"
  | examplesDir => "--examples-dir <DIR>"
  | memoryBudget => "--memory-budget <BYTES>"
  | verbose => "--verbose..."
  | quiet => "--quiet"
  | help => "--help"
  | version => "--version"

end Parameter

/-! ### Faults -/

/-- Why a value is not taken. -/
inductive ValueFault where
  | integer (fault : IntegerFault)
  /-- The number is no port. -/
  | noPort (n : Int)
  deriving DecidableEq, Repr, Inhabited

/-- The greatest number of a port. -/
def maxPort : Nat := 65535

/-- The text of a fault. -/
def ValueFault.text : ValueFault → String
  | integer fault => fault.text
  | noPort n => s!"{n} is not in 0..={maxPort}"

/-- What is wrong with a command line. -/
inductive UsageError where
  | unexpected (argument : String)
  | invalidValue (value : String) (parameter : Parameter) (fault : ValueFault)
  | valueMissing (parameter : Parameter)
  /-- An option that takes no value has one attached. -/
  | valueUnexpected (value : String) (parameter : Parameter)
  | repeated (parameter : Parameter)
  | conflict (first second : Parameter)
  /-- Values that are given by position are missing. -/
  | incomplete
  deriving DecidableEq, Repr, Inhabited

/-- The text of a fault. -/
def UsageError.text : UsageError → String
  | unexpected argument => s!"error: unexpected argument '{argument}' found"
  | invalidValue value parameter fault =>
    s!"error: invalid value '{value}' for '{parameter.shown}': {fault.text}"
  | valueMissing parameter =>
    s!"error: a value is required for '{parameter.shown}' but none was supplied"
  | valueUnexpected value parameter =>
    s!"error: unexpected value '{value}' for '{parameter.shown}' found; no more were expected"
  | repeated parameter =>
    s!"error: the argument '{parameter.shown}' cannot be used multiple times"
  | conflict first second =>
    s!"error: the argument '{first.shown}' cannot be used with '{second.shown}'"
  | incomplete => "error: the following required arguments were not provided:"

/-- Why a command line is not read to its end. -/
inductive Interruption where
  /-- The help text is asked for. -/
  | help
  /-- The version is asked for; more about it if `long`. -/
  | version (long : Bool)
  | wrong (error : UsageError)
  deriving DecidableEq, Repr, Inhabited

/-! ### Values -/

/-- What has been given so far. -/
structure Given where
  device : Option String := none
  port : Option Nat := none
  mount : Option String := none
  host : Option String := none
  config : Option String := none
  overrides : Overrides := {}
  verbosity : Nat := 0
  quiet : Bool := false
  /-- The options that cannot be used together, the one that was given last at the end. -/
  levels : List Parameter := []
  deriving DecidableEq, Repr, Inhabited

/-- Stops with a fault. -/
def wrong {α : Type} (error : UsageError) : Except Interruption α := .error (.wrong error)

namespace Given

/-- An integer of a range as the value of a parameter. -/
def integer (p : Parameter) (least : Int) (greatest : Nat) (value : String) :
    Except Interruption Int :=
  (readInteger least greatest value).mapError fun fault =>
    .wrong (.invalidValue value p (.integer fault))

/-- A natural number in a word as the value of a parameter. -/
def size (p : Parameter) (value : String) : Except Interruption Nat :=
  Int.toNat <$> integer p 0 (UInt64.size - 1) value

/-- A port. -/
def portNumber (value : String) : Except Interruption Nat := do
  let n ← integer .port Int64.minValue.toInt Int64.maxValue.toNatClampNeg value
  if 0 ≤ n ∧ n ≤ maxPort then return n.toNat
  wrong (.invalidValue value .port (.noPort n))

/-- A path, which is not empty. -/
def path (p : Parameter) (value : String) : Except Interruption String :=
  if value.isEmpty then wrong (.valueMissing p) else .ok value

/-- Something may be given once. -/
def once {α : Type} (p : Parameter) (before : Option α) : Except Interruption Unit :=
  if before.isSome then wrong (.repeated p) else .ok ()

/-- Takes the value of a parameter. -/
def accept (g : Given) (p : Parameter) (value : String) : Except Interruption Given := do
  let o := g.overrides
  match p with
  | .device => return { g with device := some value }
  | .port => return { g with port := some (← portNumber value) }
  | .mount => return { g with mount := some value }
  | .host =>
    once p g.host
    return { g with host := some value }
  | .config =>
    once p g.config
    return { g with config := some (← path p value) }
  | .bootstrap =>
    once p o.bootstrap
    return { g with overrides := { o with bootstrap := some (← path p value) } }
  | .maxClients =>
    once p o.maxClients
    return { g with overrides := { o with maxClients := some (← size p value) } }
  | .examplesDir =>
    once p o.examplesDir
    return { g with overrides := { o with examplesDir := some (← path p value) } }
  | .memoryBudget =>
    once p o.memoryBudget
    return { g with overrides := { o with memoryBudget := some (← size p value) } }
  | .verbose | .quiet | .help | .version => return g

/-- Takes an option without a value. -/
def acceptFlag (g : Given) (p : Parameter) (isLong : Bool) : Except Interruption Given :=
  let levels := g.levels.filter (· != p) ++ [p]
  match p with
  | .verbose => .ok { g with verbosity := min 255 (g.verbosity + 1), levels }
  | .quiet => if g.quiet then wrong (.repeated p) else .ok { g with quiet := true, levels }
  | .help => .error .help
  | .version => .error (.version isLong)
  | _ => .ok g

end Given

/-! ### Reading from the left to the right -/

/-- A command line of which a part has been read. -/
structure Reading where
  given : Given := {}
  /-- A parameter whose value has not been checked; it may not have followed yet. -/
  pending : Option (Parameter × Option String) := none
  /-- The parameters that are given by position and have not been given yet. -/
  positions : List Parameter := Parameter.positional
  /-- All further arguments are given by position. -/
  optionsEnded : Bool := false
  deriving Inhabited

namespace Reading

/-- Checks the value that has not been checked. -/
def settle (r : Reading) : Except Interruption Reading :=
  match r.pending with
  | none => .ok r
  | some (p, none) => wrong (.valueMissing p)
  | some (p, some value) => do
    return { r with given := ← r.given.accept p value, pending := none }

/-- An option without a value. -/
def flag (r : Reading) (p : Parameter) (isLong : Bool) : Except Interruption Reading := do
  let r ← r.settle
  return { r with given := ← r.given.acceptFlag p isLong }

/-- An option by its long name, with the value that is attached to it. -/
def longOption (r : Reading) (name : String) (attached : Option String) :
    Except Interruption Reading := do
  match Parameter.long.lookup name, attached with
  | none, _ => wrong (.unexpected s!"--{name}")
  | some p, some value =>
    if p.takesValue then
      let r ← r.settle
      return { r with given := ← r.given.accept p value }
    else wrong (.valueUnexpected value p)
  | some p, none =>
    if p.takesValue then return { (← r.settle) with pending := some (p, none) }
    else r.flag p true

/-- Options by their short names. -/
def shortOptions (r : Reading) : List Char → Except Interruption Reading
  | [] => .ok r
  | c :: rest => do
    match Parameter.short.lookup c with
    | some p => (← r.flag p false).shortOptions rest
    | none => wrong (.unexpected s!"-{c}")

/-- The option that the next argument may be the value of. -/
def awaiting? (r : Reading) : Option Parameter :=
  match r.pending with
  | some (p, none) => if r.optionsEnded then none else some p
  | _ => none

/-- A value: of the option in front of it, or by its position. -/
def value (r : Reading) (text : String) : Except Interruption Reading :=
  match r.awaiting?, r.positions with
  | some p, _ => .ok { r with pending := some (p, some text) }
  | none, p :: rest => do
    let r ← r.settle
    return { r with pending := some (p, some text), positions := rest }
  | none, [] => wrong (.unexpected text)

/-- The next argument. -/
def next (r : Reading) (text : String) : Except Interruption Reading :=
  if r.optionsEnded then r.value text
  else match text.toList with
    | ['-', '-'] => .ok { r with optionsEnded := true }
    | '-' :: '-' :: rest =>
      let name := String.ofList (rest.takeWhile (· != '='))
      let attached := match rest.dropWhile (· != '=') with
        | _ :: value => some (String.ofList value)
        | [] => none
      r.longOption name attached
    | '-' :: c :: rest => r.shortOptions (c :: rest)
    | _ => r.value text

end Reading

/-! ### Complete command lines -/

/-- What a complete command line gives. -/
structure Arguments where
  device : String
  port : Nat
  mount : String
  host : String
  config : Option String
  overrides : Overrides
  verbosity : Nat
  quiet : Bool
  deriving DecidableEq, Repr, Inhabited

/-- The address that is listened on if none is given. -/
def defaultHost : String := "0.0.0.0"

/-- What has been given, if it is complete. -/
def Given.complete (g : Given) : Except Interruption Arguments :=
  match g.levels, g.device, g.port, g.mount with
  | [first, second], _, _, _ => wrong (.conflict first second)
  | _, some device, some port, some mount => .ok {
      device, port, mount
      host := g.host.getD defaultHost
      config := g.config
      overrides := g.overrides
      verbosity := g.verbosity
      quiet := g.quiet }
  | _, _, _, _ => wrong .incomplete

/-- Reads a command line. -/
def parse (arguments : List String) : Except Interruption Arguments := do
  let r ← arguments.foldlM Reading.next {}
  (← r.settle).given.complete

end PixelHost.Cli
