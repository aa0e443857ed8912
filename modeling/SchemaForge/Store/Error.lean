import SchemaForge.Schema.Naming
import SchemaForge.Store.Row

/-!
# Refusals of the store
-/

namespace SchemaForge

/-- Why the store refuses a request. A row of another owner counts as missing. -/
inductive StoreError
  | projectNotFound (id : ProjectId)
  | objectNotFound (id : ObjectId)
  | duplicate (entity : Entity)
  | naming (error : NamingError)
  | corrupt (row : CorruptRow)
  | backend (reason : String)
  deriving DecidableEq

/-- The complaint about a name that is taken. -/
def Entity.duplicateMessage : Entity → String
  | project => "Project with this name already exists"
  | object => "Object with this name already exists for this project"
  | attr => "Duplicate attribute names for this object"
  | action => "Action with this name already exists for this object"

/-- The words for a refusal. -/
def StoreError.message : StoreError → String
  | projectNotFound id => s!"Project id={id} does not exist"
  | objectNotFound id => s!"Object id={id} does not exist"
  | duplicate entity => entity.duplicateMessage
  | naming error => error.message
  | corrupt row => row.message
  | backend reason => s!"Schema store error: {reason}"

/-- A naming rule as a demand of the store. -/
def demand (c : Checked) : Except StoreError Unit := c.mapError .naming

end SchemaForge
