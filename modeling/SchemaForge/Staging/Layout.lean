import SchemaForge.Schema.Naming
import SchemaForge.Schema.Records
import SchemaForge.Text.Pieces

/-!
# Layout of the staging area

Every project has a directory of its own, in which its model files and its archive are staged. The
directory is named by the numbers of the owner and the project.
-/

namespace SchemaForge.Layout

/-- Parts of a path put together with slashes; slashes at the ends of parts and empty parts do not
count. -/
def joinPath (parts : List String) : String :=
  let bare := parts.map fun part => String.ofList (Text.stripped (· == '/') part.toList)
  "/".intercalate (bare.filter fun part => !part.isEmpty)

/-- The directory of a project. -/
def projectDirectory (owner : UserId) (project : ProjectId) : String :=
  joinPath [toString owner, "projects", toString project]

/-- The directory of the model files of a project. -/
def objectsDirectory (owner : UserId) (project : ProjectId) : String :=
  joinPath [projectDirectory owner project, "objects"]

/-- The path of a model file. -/
def objectFile (owner : UserId) (project : ProjectId) (name : String) : String :=
  joinPath [objectsDirectory owner project, name]

/-- The path of the archive of a project with this name. -/
def archiveFile (owner : UserId) (project : ProjectId) (name : String) : String :=
  joinPath [projectDirectory owner project, Naming.fileName name ++ ".zip"]

end SchemaForge.Layout
