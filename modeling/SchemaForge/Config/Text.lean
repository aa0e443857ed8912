import SchemaForge.Config.Basic
import SchemaForge.Toml.Document

/-!
# Settings as text

Settings are written in TOML. Keys that name no setting are passed over; of the settings of a wrong
kind, the first is complained about.
-/

namespace SchemaForge

/-- Why a text gives no settings. -/
inductive ConfigError
  | syntaxError
  | wrongType (found : Toml.Value) (expected : String)
  | unknownCompression (name : String)
  | notACompression

/-- The words for a refusal. -/
def ConfigError.message : ConfigError → String
  | syntaxError => "TOML parse error"
  | wrongType found expected => s!"invalid type: {found.describe}, expected {expected}"
  | unknownCompression name =>
    s!"unknown variant `{name}`, expected "
      ++ JsonError.alternatives (Archive.Compression.all.map Archive.Compression.name)
  | notACompression => "wanted string or table"

namespace CompilerConfig

/-- The way of packing with exactly this name. -/
def compressionNamed (name : String) : Except ConfigError Archive.Compression :=
  match Archive.Compression.all.find? fun c => c.name == name with
  | some c => .ok c
  | none => .error (.unknownCompression name)

/-- Is the value an array or table without content? -/
def isVoid : Toml.Value → Bool
  | .array [] | .table _ [] | .tables [] => true
  | _ => false

/-- A way of packing: its name, or a table with the name as its only key and nothing under it. -/
def readCompression : Toml.Value → Except ConfigError Archive.Compression
  | .text name => compressionNamed name
  | .table _ [(name, content)] => do
    let c ← compressionNamed name
    if isVoid content then return c else throw .notACompression
  | _ => .error .notACompression

/-- Settings with one of them read from an entry. -/
def readEntry (config : CompilerConfig) : String × Toml.Value → Except ConfigError CompilerConfig
  | ("staging_dir", .text s) => .ok { config with stagingRoot := ⟨s⟩ }
  | ("staging_dir", v) => .error (.wrongType v "path string")
  | ("compression", v) => do return { config with compression := ← readCompression v }
  | ("persist_archive", .bool b) => .ok { config with keepArchive := b }
  | ("persist_archive", v) => .error (.wrongType v "a boolean")
  | _ => .ok config

/-- The settings that a text gives. -/
def ofText (s : String) : Except ConfigError CompilerConfig :=
  match Toml.parse s with
  | none => .error .syntaxError
  | some entries => entries.foldlM readEntry standard

end CompilerConfig

end SchemaForge
