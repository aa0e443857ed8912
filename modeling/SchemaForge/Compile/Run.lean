import SchemaForge.Compile.Generation
import SchemaForge.Config.Basic
import SchemaForge.Staging.Area
import SchemaForge.Staging.Layout

/-!
# Compiling a project

The generated models are staged as files, files of objects that are gone are removed, and what was
staged is read back and packed into an archive. The steps are requests to the staging area, so that
several compiles can take turns.
-/

namespace SchemaForge

/-- What a compile results in: the name to save the archive under, the archive, and the names of its
members. -/
structure CompiledArchive where
  fileName : String
  bytes : Bytes
  members : List String
  deriving DecidableEq

namespace Generation

/-- The steps of a compile. -/
abbrev Steps (α : Type) : Type 1 := ExceptT CompileError (Script StagingCall) α

/-- A request to the staging area that must succeed. -/
def ask (c : StagingCall (Except StagingError α)) : Steps α := do
  match ← (Script.ask c : Script StagingCall _) with
  | .ok a => return a
  | .error e => throw (.staging e)

/-- The staged path of a model. -/
def stagedPath (owner : UserId) (id : ProjectId) (m : GeneratedModel) : String :=
  Layout.objectFile owner id m.fileName

/-- The models are written to their files. -/
def stage (owner : UserId) (id : ProjectId) : List GeneratedModel → Steps Unit
  | [] => return ()
  | m :: rest => do
    ask (.write (stagedPath owner id m) (Text.utf8 m.file.source))
    stage owner id rest

/-- Files that belong to no current model are removed. One that is gone already does no harm. -/
def prune (directory : String) (current : List String) : List String → Steps Unit
  | [] => return ()
  | name :: rest => do
    if !current.contains name then
      match ← (Script.ask (.delete (directory ++ "/" ++ name)) : Script StagingCall _) with
      | .ok () | .error (.fileNotFound _) => pure ()
      | .error e => throw (.staging e)
    prune directory current rest

/-- The staged files as entries of the archive. -/
def collect (owner : UserId) (id : ProjectId) (project : String) :
    List GeneratedModel → Steps (List Archive.Entry)
  | [] => return []
  | m :: rest => do
    let content ← ask (.read (stagedPath owner id m))
    let entries ← collect owner id project rest
    return ⟨entryName project m.file.path, content⟩ :: entries

/-- The steps after the models are generated, with a writer of archives. -/
def compileWith (pack : Archive.Packer) (g : Generation) (config : CompilerConfig)
    (owner : UserId) (id : ProjectId) : Steps CompiledArchive := do
  let directory := Layout.objectsDirectory owner id
  ask (.makeDirectory directory)
  stage owner id g.models
  let staged ← ask (.list directory)
  prune directory (g.models.map GeneratedModel.fileName) staged
  let entries ← collect owner id g.project.name g.models
  match pack config.compression entries with
  | .error e => throw (.archive e)
  | .ok bytes =>
    if config.keepArchive then
      ask (.write (Layout.archiveFile owner id g.project.name) bytes)
    return ⟨g.project.name ++ ".zip", bytes, entries.map Archive.Entry.name⟩

end Generation

namespace Store

/-- The steps of a compile of a project of the user, with a writer of archives. -/
def compileWith (pack : Archive.Packer) (s : Store) (config : CompilerConfig) (owner : UserId)
    (id : ProjectId) : Script StagingCall (Except CompileError CompiledArchive) :=
  match s.generate owner id with
  | .error e => return .error e
  | .ok g => (g.compileWith pack config owner id).run

/-- The steps of a compile of a project of the user. -/
def compile (s : Store) (config : CompilerConfig) (owner : UserId) (id : ProjectId) :
    Script StagingCall (Except CompileError CompiledArchive) :=
  s.compileWith Archive.pack config owner id

/-- The outcome of a compile on a tree of files that nobody else touches, and the tree after it. -/
def compileOnWith (pack : Archive.Packer) (s : Store) (config : CompilerConfig) (owner : UserId)
    (id : ProjectId) (t : FileTree) : Except CompileError CompiledArchive × FileTree :=
  (s.compileWith pack config owner id).run (StagingArea.mk config.stagingRoot).perform t

/-- The same with archives as they are written by default. -/
def compileOn (s : Store) (config : CompilerConfig) (owner : UserId) (id : ProjectId)
    (t : FileTree) : Except CompileError CompiledArchive × FileTree :=
  s.compileOnWith Archive.pack config owner id t

end Store

end SchemaForge
