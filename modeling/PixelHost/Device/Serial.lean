import PixelHost.Files.Tree

/-!
# Serial lines

Frames go to a device file. If it is a terminal its line is set up to pass bytes on unchanged, eight
bits without parity and one stop bit; any other file is written as it is, from its start on and
without being cut off. A speed that no line has is refused in either case.

## Main definitions

* `HardwareError` — why a device is not used.
* `LineSettings` — how a line is set up.
* `SerialLine.connect` — opens a device.
* `SerialLine.write` — sends a frame.
-/

namespace PixelHost

/-- Why a device is not used. -/
inductive HardwareError where
  | cannotOpen (path : String) (cause : FileError)
  | cannotConfigure (path : String) (cause : FileError)
  | unsupportedBaud (baud : Nat)
  deriving DecidableEq, Repr, Inhabited

/-- The text of an error. -/
def HardwareError.text : HardwareError → String
  | cannotOpen path cause => s!"cannot open {path}: {cause.text}"
  | cannotConfigure path cause => s!"cannot configure {path}: {cause.text}"
  | unsupportedBaud baud => s!"unsupported baud rate {baud}"

/-- The cause of an error, if the operating system reported it. -/
def HardwareError.cause? : HardwareError → Option FileError
  | cannotOpen _ cause | cannotConfigure _ cause => some cause
  | unsupportedBaud _ => none

/-- How a line is set up. -/
structure LineSettings where
  /-- The speed in bits a second. -/
  baud : Nat
  eightBits : Bool := true
  parity : Bool := false
  twoStopBits : Bool := false
  /-- Modem lines are ignored. -/
  isLocal : Bool := true
  receives : Bool := true
  /-- Input is handed on line by line. -/
  byLine : Bool := false
  echoes : Bool := false
  /-- Some characters raise signals. -/
  raisesSignals : Bool := false
  /-- Output is changed on its way. -/
  processesOutput : Bool := false
  /-- Output can be held back by the other side. -/
  flowControl : Bool := false
  /-- A carriage return is read as a line feed. -/
  convertsReturns : Bool := false
  /-- The number of bytes that reading waits for. -/
  waitsFor : Nat := 0
  /-- The tenths of a second that reading waits for. -/
  patience : Nat := 0
  deriving DecidableEq, Repr, Inhabited

/-- An open device. -/
structure SerialLine where
  /-- The path that was opened, without links. -/
  target : List String
  node : FileNode
  /-- The position of the next byte in a file. -/
  position : Nat := 0
  /-- How the line was set up, if there is one. -/
  settings : Option LineSettings := none
  /-- What went through a line. -/
  sent : Bytes := .empty

namespace SerialLine

/-- The speeds that lines have. -/
def speeds : List Nat := [9600, 19200, 38400, 57600, 115200, 230400, 460800, 921600]

/-- Opens a device. -/
def connect (files : FileTree) (path : String) (baud : Nat) : Except HardwareError SerialLine := do
  let (target, node) ← (files.resolve path).mapError (.cannotOpen path)
  match node with
  | .directory => throw (.cannotOpen path .isDirectory)
  | .barred cause => throw (.cannotOpen path cause)
  | .device .detached => throw (.cannotOpen path .noDevice)
  | _ => pure ()
  if !speeds.contains baud then throw (.unsupportedBaud baud)
  match node with
  | .device .terminal => return { target, node, settings := some { baud } }
  | _ => return { target, node }

/-- Sends a frame. -/
def write (line : SerialLine) (frame : Bytes) (files : FileTree) :
    Except FileError Unit × SerialLine × FileTree :=
  match line.node with
  | .file _ =>
    let content := match files.node? line.target with
      | some (.file content) => content
      | _ => .empty
    let files :=
      files.put line.target (.file (FileTree.overwrite content line.position frame))
    (.ok (), { line with position := line.position + frame.size }, files)
  | .device .full =>
    if frame.size = 0 then (.ok (), line, files) else (.error .noSpace, line, files)
  | .device .terminal => (.ok (), { line with sent := line.sent ++ frame }, files)
  | _ => (.ok (), line, files)

end SerialLine

end PixelHost
