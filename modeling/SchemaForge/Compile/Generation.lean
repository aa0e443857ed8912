import SchemaForge.Compile.Error
import SchemaForge.Model.File
import SchemaForge.Store.Basic

/-!
# Generating the models of a project

The objects of a project, in the order of their numbers, each with its model file. Nothing but the
store is looked at.
-/

namespace SchemaForge

/-- An object and its model file. -/
structure GeneratedModel where
  object : Object
  file : ModelFile
  deriving DecidableEq

/-- The name under which a model file is staged. -/
def GeneratedModel.fileName (m : GeneratedModel) : String := ModelFile.nameOf m.object

/-- The models of a project, in the order of the objects' numbers. -/
structure Generation where
  project : Project
  models : List GeneratedModel
  deriving DecidableEq

namespace Store

/-- The models of objects, up to the first attribute that is corrupt. -/
def modelsOf (s : Store) (owner : UserId) : List Object → Except StoreError (List GeneratedModel)
  | [] => .ok []
  | object :: rest => do
    let attributes ← s.listAttributes owner object.id
    let models ← s.modelsOf owner rest
    return ⟨object, .ofObject object attributes⟩ :: models

/-- The models of a project of the user. -/
def generate (s : Store) (owner : UserId) (id : ProjectId) : Except CompileError Generation :=
  Except.mapError CompileError.ofStore do
    let project ← s.getProject owner id
    let objects ← s.listObjects owner id
    return ⟨project, ← s.modelsOf owner objects⟩

end Store

namespace Generation

/-- The name of a generated file in the archive of a project. -/
def entryName (project path : String) : String := project ++ "/" ++ path

/-- The line before a generated file in a listing. -/
def banner (project path : String) : String := "==> " ++ entryName project path ++ " <=="

/-- A file as a part of a listing. -/
def listed (project : String) (m : GeneratedModel) : String :=
  banner project m.file.path ++ "\n" ++ m.file.source

/-- All generated files as one text, with an empty line between two files. -/
def listing (g : Generation) : String := "\n".intercalate (g.models.map (listed g.project.name))

end Generation

end SchemaForge
