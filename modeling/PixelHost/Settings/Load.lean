import PixelHost.Files.Tree
import PixelHost.Settings.Document

/-!
# Loading settings

Settings are read from a file that is named, else from a file at a usual place if there is one; else
the built-in ones hold.

## Main definitions

* `SettingsError` — why there are no settings.
* `Settings.loadFrom` — the settings that a file gives.
* `Settings.load` — settings that meet the conditions.
* `Settings.resolve` — the settings with those of a command line.
-/

namespace PixelHost

/-- Why there are no settings. -/
inductive SettingsError where
  /-- The file cannot be read. -/
  | unreadable (path : String) (cause : FileError)
  /-- The text of the file gives no settings. -/
  | unfit (path text : String) (fault : DocumentFault)
  /-- The settings do not meet a condition. -/
  | invalid (violation : Violation)
  deriving DecidableEq, Repr, Inhabited

namespace SettingsError

/-- The text about a file that cannot be read. -/
def unreadableText (path : String) (cause : FileError) : String :=
  s!"cannot read {path}: {cause.text}"

/-- The text about a file that gives no settings. -/
def unfitText (path detail : String) : String := s!"invalid {path}: {detail}"

/-- The text about settings that do not meet a condition. -/
def invalidText (reason : String) : String := s!"invalid settings: {reason}"

/-- The text of an error. -/
def text : SettingsError → String
  | unreadable path cause => unreadableText path cause
  | unfit path text fault => unfitText path (fault.report text)
  | invalid violation => invalidText violation.text

end SettingsError

namespace Settings

/-- The settings, if they meet the conditions. -/
def validated (s : Settings) : Except SettingsError Settings :=
  match s.violation? with
  | some violation => .error (.invalid violation)
  | none => .ok s

/-- The settings that a file gives. -/
def loadFrom (files : FileTree) (path : String) : Except SettingsError Settings :=
  match files.readText path with
  | .error cause => .error (.unreadable path cause)
  | .ok text => (ofText text).mapError (.unfit path text)

/-- The settings that a file gives: the one that is named, else the one at the usual place, if it is
there. Without a file the built-in settings hold. -/
def loadAny (files : FileTree) (named usual : Option String) : Except SettingsError Settings :=
  match named, usual with
  | some path, _ => loadFrom files path
  | none, some path => if (files.resolve path).isOk then loadFrom files path else .ok {}
  | none, none => .ok {}

/-- Settings that meet the conditions. -/
def load (files : FileTree) (named usual : Option String) : Except SettingsError Settings := do
  (← loadAny files named usual).validated

/-- The settings of a file with those of a command line. Both must meet the conditions. -/
def resolve (files : FileTree) (named usual : Option String) (o : Overrides) :
    Except SettingsError Settings := do
  ((← load files named usual).override o).validated

/-- The usual place of the settings file below a directory. -/
def usualPath (directory : String) : String := s!"{directory}/ledsand/settings.toml"

end Settings

end PixelHost
