import SchemaForge.Archive.Deflate
import SchemaForge.Archive.Record

/-!
# Writing an archive

Entries are put into an archive in the order given. Two entries of one name are refused, and so is a
name that the records cannot hold.
-/

namespace SchemaForge

/-- Why entries cannot be put into an archive. -/
inductive ArchiveError
  | duplicateName (name : String)
  | nameTooLong
  deriving DecidableEq

/-- The words for a refusal. -/
def ArchiveError.message : ArchiveError → String
  | duplicateName name => s!"invalid Zip archive: Duplicate filename: {name}"
  | nameTooLong => "invalid Zip archive: File name too long"

namespace Archive

/-- A way to put entries into an archive. -/
abbrev Packer := Compression → List Entry → Except ArchiveError Bytes

/-- The member of an entry. -/
def Entry.member (compression : Compression) (e : Entry) : Member :=
  ⟨Text.utf8 e.name, compression, crc32 e.content, e.content.length,
    match compression with
    | .deflated => Deflate.pack e.content
    | .stored => e.content⟩

/-- The names are such that an archive can hold them, given the names before them. -/
def checkNames (before : List String) : List Entry → Except ArchiveError Unit
  | [] => .ok ()
  | e :: rest => do
    if before.contains e.name then throw (.duplicateName e.name)
    if 65535 < (Text.utf8 e.name).length then throw .nameTooLong
    checkNames (e.name :: before) rest

/-- The archive of the entries. -/
def pack : Packer := fun compression entries => do
  checkNames [] entries
  return contents (entries.map (Entry.member compression))

end Archive

end SchemaForge
