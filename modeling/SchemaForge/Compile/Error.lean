import SchemaForge.Archive.Writer
import SchemaForge.Staging.Error
import SchemaForge.Store.Error

/-!
# Why a compile fails
-/

namespace SchemaForge

/-- Why a project cannot be compiled. -/
inductive CompileError
  | projectNotFound (id : ProjectId)
  | inconsistent (row : CorruptRow)
  | store (error : StoreError)
  | staging (error : StagingError)
  | archive (error : ArchiveError)
  deriving DecidableEq

namespace CompileError

/-- The words for a failure. -/
def message : CompileError → String
  | projectNotFound id => s!"Project id={id} does not exist"
  | inconsistent row => s!"Internal consistency error: {row.message}"
  | store error => s!"Schema store error: {error.message}"
  | staging error => s!"Staging error: {error.message}"
  | archive error => s!"Archive error: {error.message}"

/-- The message of what is behind the failure, where there is such a thing. -/
def cause? : CompileError → Option String
  | staging error => some error.message
  | archive error => some error.message
  | _ => none

/-- A refusal of the store as a failure of the compile. -/
def ofStore : StoreError → CompileError
  | .projectNotFound id => projectNotFound id
  | .corrupt row => inconsistent row
  | error => store error

end CompileError

end SchemaForge
