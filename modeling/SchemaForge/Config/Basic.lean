import SchemaForge.Archive.Record
import SchemaForge.Files.Path
import SchemaForge.Json.Record
import SchemaForge.Text.Case

/-!
# Settings of the compiler

Where files are staged, how archives are packed, and whether an archive is kept beside the staged
files. Every setting has a default.
-/

namespace SchemaForge

namespace Archive.Compression

/-- All ways of packing. -/
def all : List Compression := [deflated, stored]

/-- The name of a way of packing. -/
def name : Compression → String
  | deflated => "deflated"
  | stored => "stored"

/-- The way of packing with this name, in any case; each has a second name. -/
def ofName? (s : String) : Option Compression :=
  match Text.lower s with
  | "deflated" | "deflate" => some deflated
  | "stored" | "none" => some stored
  | _ => none

/-- The complaint about a name of no way of packing. -/
def unknown (s : String) : String :=
  s!"Invalid compression: {s}. Valid options: " ++ ", ".intercalate (all.map name)

/-- A way of packing as JSON. -/
def codec : Codec Compression := .choice all name

end Archive.Compression

/-- The settings of the compiler. -/
structure CompilerConfig where
  stagingRoot : HostPath
  compression : Archive.Compression
  keepArchive : Bool
  deriving DecidableEq

namespace CompilerConfig

/-- The settings where nothing is said. -/
def standard : CompilerConfig := ⟨⟨"compiled_projects"⟩, .deflated, true⟩

/-- A path as JSON. -/
def pathCodec : Codec HostPath where
  encode p := .text p.text
  decode src d := HostPath.mk <$> (Codec.textAs "path string").decode src d

/-- Settings as JSON. -/
def codec : Codec CompilerConfig :=
  .record "struct CompilerConfig"
    (.field (.withDefault "staging_dir" pathCodec standard.stagingRoot) <|
      .field (.withDefault "compression" Archive.Compression.codec standard.compression) <|
      .field (.withDefault "persist_archive" .bool standard.keepArchive) .done)
    (fun c => (c.stagingRoot, c.compression, c.keepArchive, ()))
    (fun (stagingRoot, compression, keepArchive, ()) => ⟨stagingRoot, compression, keepArchive⟩)

end CompilerConfig

end SchemaForge
