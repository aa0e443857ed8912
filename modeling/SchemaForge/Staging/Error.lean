import SchemaForge.Files.Error

/-!
# Refusals of the staging area
-/

namespace SchemaForge

/-- What was being done when the file system refused. -/
inductive StagingTask
  | resolve
  | readFile
  | makeDirectoryFor
  | writeFile
  | readDirectory
  | deleteFile
  | makeDirectory
  deriving DecidableEq, Repr

/-- The task in words. -/
def StagingTask.label : StagingTask → String
  | resolve => "resolve"
  | readFile => "read file"
  | makeDirectoryFor => "create directory for"
  | writeFile => "write file"
  | readDirectory => "read directory"
  | deleteFile => "delete file"
  | makeDirectory => "create directory"

/-- Why a request to the staging area fails; paths are those of the request. -/
inductive StagingError
  | fileNotFound (path : String)
  | directoryNotFound (path : String)
  | failed (task : StagingTask) (path : String) (error : OsError)
  | inputOutput (reason : String)
  | leavesRoot (path : String)
  | escapesRoot (path : String)
  | denied (reason : String)
  /-- For a storage that is no file system. -/
  | backend (reason : String)
  deriving DecidableEq

/-- The words for a failure. -/
def StagingError.message : StagingError → String
  | fileNotFound path => s!"File not found: {path}"
  | directoryNotFound path => s!"Directory not found: {path}"
  | failed task path error => s!"IO error: Failed to {task.label} {path}: {error.message}"
  | inputOutput reason => s!"IO error: {reason}"
  | leavesRoot path => s!"Permission denied: Path leaves the staging root: {path}"
  | escapesRoot path => s!"Permission denied: Path escapes the staging root: {path}"
  | denied reason => s!"Permission denied: {reason}"
  | backend reason => s!"Storage backend error: {reason}"

end SchemaForge
