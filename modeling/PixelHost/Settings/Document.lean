import PixelHost.Settings.Basic
import PixelHost.Text.Quoted
import PixelHost.Text.ShortestDecimal
import PixelHost.Toml.Document
import PixelHost.Toml.Excerpt

/-!
# Settings documents

A settings document is a table whose keys are the names of fields. The entries are looked at in the
order of the document, and the first one that names no field, or whose value does not fit its field,
is reported.

## Main definitions

* `Setting.ofEntry` — the setting that an entry gives.
* `Settings.ofText` — the settings that a document gives.
-/

namespace PixelHost

/-! ### What a field takes -/

/-- The values that a field takes. -/
inductive FieldType where
  /-- A size. -/
  | size
  /-- A natural number below `2^64`. -/
  | wide
  /-- A natural number below `2^32`. -/
  | narrow
  /-- A path. -/
  | path
  deriving DecidableEq, Repr, Inhabited

namespace FieldType

/-- The name of a type in reports. -/
def name : FieldType → String
  | size => "usize"
  | wide => "u64"
  | narrow => "u32"
  | path => "path string"

/-- The least natural number that is too large. -/
def bound : FieldType → Nat
  | narrow => UInt32.size
  | _ => UInt64.size

end FieldType

/-- Why an entry gives no setting. -/
inductive Misfit where
  /-- No field has the name. -/
  | unknownField (name : String)
  /-- The value is described; it is not of the type of the field. -/
  | wrongType (found : String) (expected : FieldType)
  /-- The integer is not of the type of the field. -/
  | outOfRange (n : Int) (expected : FieldType)
  deriving DecidableEq, Repr, Inhabited

/-- The names of the fields. -/
def Setting.names : List String := [
  "pixel_count", "memory_budget", "max_upload", "quantum_ms", "initial_delay_ms", "outbox_depth",
  "max_clients", "baud", "examples_dir", "bootstrap", "instruction_limit"]

/-- The text of a misfit. -/
def Misfit.text : Misfit → String
  | unknownField name =>
    let names := ", ".intercalate (Setting.names.map fun name => s!"\x60{name}\x60")
    s!"unknown field \x60{name}\x60, expected one of {names}"
  | wrongType found expected => s!"invalid type: {found}, expected {expected.name}"
  | outOfRange n expected => s!"invalid value: integer \x60{n}\x60, expected {expected.name}"

/-- What a report calls a value. -/
def Toml.Node.describe : Toml.Node → String
  | .scalar (.string text) _ => s!"string {Quoted.encode text}"
  | .scalar (.integer n) _ => s!"integer \x60{n}\x60"
  | .scalar (.float x) _ => s!"floating point \x60{ShortestDecimal.positional x}\x60"
  | .scalar (.boolean b) _ => s!"boolean \x60{b}\x60"
  | .array _ _ | .tables _ => "sequence"
  | .scalar .moment _ | .table _ _ _ => "map"

/-! ### Reading entries -/

namespace Setting

/-- The number that a field takes. -/
def number (type : FieldType) (node : Toml.Node) : Except Misfit Nat :=
  match node with
  | .scalar (.integer n) _ =>
    if 0 ≤ n ∧ n < type.bound then .ok n.toNat else .error (.outOfRange n type)
  | node => .error (.wrongType node.describe type)

/-- The path that a field takes. -/
def path (node : Toml.Node) : Except Misfit String :=
  match node with
  | .scalar (.string text) _ => .ok text
  | node => .error (.wrongType node.describe .path)

/-- The setting that an entry gives. -/
def ofEntry (name : String) (node : Toml.Node) : Except Misfit Setting :=
  match name with
  | "pixel_count" => .pixelCount <$> number .size node
  | "memory_budget" => .memoryBudget <$> number .size node
  | "max_upload" => .maxUpload <$> number .size node
  | "quantum_ms" => .quantumMs <$> number .wide node
  | "initial_delay_ms" => .initialDelayMs <$> number .wide node
  | "outbox_depth" => .outboxDepth <$> number .size node
  | "max_clients" => .maxClients <$> number .size node
  | "baud" => .baud <$> number .narrow node
  | "examples_dir" => .examplesDir <$> path node
  | "bootstrap" => .bootstrap <$> path node
  | "instruction_limit" => .instructionLimit <$> number .wide node
  | name => .error (.unknownField name)

end Setting

/-! ### Reading documents -/

/-- Why a text gives no settings. -/
inductive DocumentFault where
  /-- The text is no document. -/
  | malformed
  /-- An entry gives no setting. -/
  | misfit (cause : Misfit) (span : Toml.Span)
  deriving DecidableEq, Repr, Inhabited

/-- The place that a report about an entry points to. -/
def Misfit.place (m : Misfit) (key : Toml.Key) (node : Toml.Node) : Toml.Span :=
  match m with
  | unknownField _ => key.span
  | _ => node.span?.getD key.span

/-- The report about a fault in a text. -/
def DocumentFault.report (text : String) : DocumentFault → String
  | malformed => "TOML parse error\n"
  | misfit cause span => Toml.excerpt text span cause.text

namespace Settings

/-- The settings that the entries of a document give. -/
def readEntries (entries : Toml.Entries) : Except DocumentFault (List Setting) :=
  entries.mapM fun (key, node) =>
    (Setting.ofEntry key.name node).mapError fun m => .misfit m (m.place key node)

/-- The settings that a document gives. -/
def ofText (text : String) : Except DocumentFault Settings :=
  match Toml.parse? text with
  | none => .error .malformed
  | some entries => ofList <$> readEntries entries

end Settings

end PixelHost
