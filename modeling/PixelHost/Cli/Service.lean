import PixelHost.Cli.Arguments
import PixelHost.Cli.Help
import PixelHost.Device.Serial
import PixelHost.Engine.Worker
import PixelHost.Sandbox.Basic
import PixelHost.Settings.Load

/-!
# The service

From a command line to a service: the settings are found, the bootstrap script is run, the device is
opened, and the scheduler starts. The first step that fails ends the program, with a code for the
kind of failure.

## Main definitions

* `Cli.StartError` — why the service does not start.
* `Cli.Service.start` — starts the service.
* `Cli.carryOut` — everything from the command line to the shutdown of a service that nothing was
  uploaded to.
-/

namespace PixelHost.Cli

/-! ### Failures -/

/-- Why the service does not start. -/
inductive StartError where
  | settings (error : SettingsError)
  /-- The file of the bootstrap script cannot be read. -/
  | unreadableBootstrap (path : String) (cause : FileError)
  | bootstrap (error : ScriptError)
  /-- The sandbox cannot be prepared, though there is no bootstrap script. -/
  | interpreter (error : ScriptError)
  | hardware (error : HardwareError)
  /-- The address cannot be listened on. -/
  | listener (host : String) (port : Nat) (reason : String)
  deriving DecidableEq, Repr, Inhabited

namespace StartError

/-- The code that the program ends with. -/
def code : StartError → Nat
  | settings _ => 10
  | hardware _ => 20
  | unreadableBootstrap _ _ | bootstrap _ => 21
  | interpreter _ => 22
  | listener _ _ _ => 30

/-- The text of an error. -/
def text : StartError → String
  | settings error => error.text
  | unreadableBootstrap path cause => s!"cannot read bootstrap {path}: {cause.text}"
  | bootstrap error => s!"bootstrap failed: {error.text}"
  | interpreter error => s!"cannot create interpreter: {error.text}"
  | hardware error => error.text
  | listener host port reason => s!"cannot listen on {host}:{port}: {reason}"

end StartError

/-- The code of a program that ended as it should. -/
def successCode : Nat := 0

/-- The code of a program with a wrong command line. -/
def usageCode : Nat := 2

/-! ### Starting -/

/-- The surroundings of the program. -/
structure Surroundings where
  files : FileTree
  /-- The directory for settings files. -/
  configDirectory : Option String := none
  /-- The time in milliseconds. -/
  clock : Nat := 0
  /-- Why an address with a port cannot be listened on. -/
  refusal? : String → Nat → Option String := fun _ _ => none

/-- A service that has been started. -/
structure Service where
  settings : Settings
  worker : Worker Sandbox.interpreter
  /-- The device that frames go to, if there is one. -/
  line : Option SerialLine

/-- The path that stands for no device. -/
def noDevice : String := "-"

namespace Service

/-- The source text of the bootstrap script. -/
def bootstrapSource (files : FileTree) : Option String → Except StartError (Option String)
  | none => .ok none
  | some path => (some <$> files.readText path).mapError (.unreadableBootstrap path)

/-- The sandbox, with what the bootstrap script printed. -/
def prepareSandbox (around : Surroundings) (settings : Settings) :
    Ending StartError Sandbox × Bytes :=
  match bootstrapSource around.files settings.bootstrap with
  | .error e => (.error e, .empty)
  | .ok bootstrap =>
    let (sandbox, printed) := Sandbox.prepare {
      pixelCount := settings.pixelCount
      memoryBudget := settings.memoryBudget
      instructionLimit := settings.instructionLimit
      bootstrap
      clock := around.clock }
    let wrap := if bootstrap.isSome then StartError.bootstrap else StartError.interpreter
    (sandbox.mapError wrap, printed)

/-- The device that frames go to. -/
def openDevice (files : FileTree) (path : String) (baud : Nat) :
    Except StartError (Option SerialLine) :=
  if path = noDevice then .ok none
  else (some <$> SerialLine.connect files path baud).mapError .hardware

/-- Starts the service. Gives what was printed on the way. The bootstrap script may take the program
along. -/
def start (around : Surroundings) (arguments : Arguments) : Ending StartError Service × Bytes :=
  let usual := around.configDirectory.map Settings.usualPath
  match Settings.resolve around.files arguments.config usual arguments.overrides with
  | .error e => (.error (.settings e), .empty)
  | .ok settings =>
    match prepareSandbox around settings with
    | (.error e, printed) => (.error e, printed)
    | (.lost, printed) => (.lost, printed)
    | (.ok sandbox, printed) =>
      match openDevice around.files arguments.device settings.baud with
      | .error e => (.error e, printed)
      | .ok line =>
        let delay := Delay.millis (UInt64.ofNat settings.initialDelayMs)
        let sink := if line.isSome then {} else Sink.discard
        let worker := {
          engine := { interpreter := sandbox, sink }
          scheduler := Scheduler.start delay settings.quantum }
        (.ok { settings, worker, line }, printed)

end Service

/-! ### Running -/

/-- How the program ended. -/
structure Exit where
  code : Nat := successCode
  /-- The fault that ended it. -/
  error : Option String := none
  /-- What it printed. -/
  output : Bytes := .empty
  /-- What it noted about its work. -/
  notes : List String := []
  deriving Inhabited

/-- The note about frames that go nowhere, which is a warning. -/
def discardNote : String := "No frame device; frames are discarded"

/-- The warnings about a service. -/
def Service.warnings (s : Service) : List String := if s.line.isNone then [discardNote] else []

/-- The notes about a service from its start to its shutdown. A quiet program notes warnings only. -/
def Service.notes (s : Service) (arguments : Arguments) : List String :=
  let serving := s!"Serving {s.settings.pixelCount} pixels on port {arguments.port} " ++
    s!"(mount {arguments.mount}), device {arguments.device}"
  if arguments.quiet then s.warnings
  else s.warnings ++ [
    serving,
    "Shutdown requested, stopping scheduler",
    s!"Stopped: {s.worker.engine.metrics.debugText}"]

/-- The whole program for a service that is shut down before anything is uploaded to it. It does not
end by itself if the bootstrap script takes it along. -/
def carryOut (around : Surroundings) (arguments : List String) : Option Exit :=
  match parse arguments with
  | .error .help => some { output := helpText.toUTF8 }
  | .error (.version long) => some { output := (versionText long).toUTF8 }
  | .error (.wrong e) => some { code := usageCode, error := some e.text }
  | .ok arguments =>
    match Service.start around arguments with
    | (.error e, output) => some { code := e.code, error := some e.text, output }
    | (.lost, _) => none
    | (.ok service, output) =>
      match around.refusal? arguments.host arguments.port with
      | some reason =>
        let e := StartError.listener arguments.host arguments.port reason
        some { code := e.code, error := some e.text, output, notes := service.warnings }
      | none => some { output, notes := service.notes arguments }

end PixelHost.Cli
