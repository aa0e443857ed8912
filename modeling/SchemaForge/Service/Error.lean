import SchemaForge.Compile.Error
import SchemaForge.Json.Error
import SchemaForge.Service.Response

/-!
# Refusals of requests

Each refusal has words for the one who made the request and a status. Faults of the service itself
keep their details to themselves.
-/

namespace SchemaForge

/-- Why a request is refused. -/
inductive ApiError
  | unauthenticated
  | invalidMethod
  | projectNotFound (id : ProjectId)
  | objectNotFound (id : ObjectId)
  | missingSegment (name : String)
  | missingBody
  | invalidBody (reason : String)
  | missingParameter (field : String)
  | missingAttributeParameter (field : String)
  | invalidParameter (field reason : String)
  | naming (error : NamingError)
  | duplicate (entity : Entity)
  | internal (detail : String)
  deriving DecidableEq

namespace ApiError

/-- The words for a refusal. -/
def message : ApiError → String
  | unauthenticated => "Not authenticated"
  | invalidMethod => "Invalid HTTP method"
  | projectNotFound id => s!"Project id={id} does not exist"
  | objectNotFound id => s!"Object id={id} does not exist"
  | missingSegment name => s!"Invalid {name}"
  | missingBody => "Missing request body"
  | invalidBody reason => s!"Invalid request body: {reason}"
  | missingParameter field => s!"Missing `{field}` parameter"
  | missingAttributeParameter field => s!"Missing `{field}` attribute parameter"
  | invalidParameter field reason => s!"Invalid `{field}` parameter: {reason}"
  | naming error => error.message
  | duplicate entity => entity.duplicateMessage
  | internal _ => "Internal server error"

/-- The status of the response to a refused request. -/
def status : ApiError → Nat
  | unauthenticated => 401
  | invalidMethod => 405
  | internal _ => 500
  | _ => 400

/-- The response to a refused request. -/
def response (e : ApiError) : Response :=
  Response.ofJson e.status (.object [("error", .text e.message)])

/-- A refusal of the store as a refusal of the request. -/
def ofStore : StoreError → ApiError
  | .projectNotFound id => projectNotFound id
  | .objectNotFound id => objectNotFound id
  | .duplicate entity => duplicate entity
  | .naming error => naming error
  | e@(.corrupt _) | e@(.backend _) => internal e.message

/-- A failed compile as a refusal of the request. -/
def ofCompile : CompileError → ApiError
  | .projectNotFound id => projectNotFound id
  | e => internal e.message

end ApiError

end SchemaForge
