import SchemaForge.Json.Value
import SchemaForge.Instant.Basic
import SchemaForge.Schema.Kinds

/-!
# Records of a schema

A user owns projects, a project has objects, and an object has attributes and actions. For each there
is the record that the store answers with and the payload that asks for a new one.
-/

namespace SchemaForge

/-- The number of a user. -/
abbrev UserId := UInt64

/-- The number of a project. -/
abbrev ProjectId := UInt64

/-- The number of an object. -/
abbrev ObjectId := UInt64

/-- The number of an attribute. -/
abbrev AttributeId := UInt64

/-- The number of an action. -/
abbrev ActionId := UInt64

/-- A project of a user. -/
structure Project where
  id : ProjectId
  name : String
  owner : UserId
  language : TargetLanguage
  createdAt : Instant
  deriving DecidableEq

/-- What a new project is to be. -/
structure NewProject where
  name : String
  language : TargetLanguage
  deriving DecidableEq

/-- A data object of a project. -/
structure Object where
  id : ObjectId
  name : String
  projectId : ProjectId
  owner : UserId
  createdAt : Instant
  deriving DecidableEq

/-- An attribute of an object. -/
structure Attribute where
  id : AttributeId
  objectId : ObjectId
  name : String
  type : AttributeType
  required : Bool
  description : Option String
  deriving DecidableEq

/-- What a new attribute is to be. -/
structure NewAttribute where
  name : String
  type : AttributeType
  required : Bool
  description : Option String
  deriving DecidableEq

/-- What a new object is to be, with its attributes. -/
structure NewObject where
  name : String
  attributes : List NewAttribute
  deriving DecidableEq

/-- How the results of a query are cut, sorted and filtered. -/
structure ResultOptions where
  pageSize : Option UInt32
  sortBy : Option String
  sortDirection : SortDirection
  filter : Option String
  deriving DecidableEq

/-- Options that change nothing. -/
def ResultOptions.plain : ResultOptions := ⟨none, none, .ascending, none⟩

/-- A value that an action answers with. -/
inductive ReturnValue
  | literal (value : Json)
  | query (source : String) (options : ResultOptions)
  | attributeValue (name : String) (options : ResultOptions)
  deriving BEq

/-- An action of an object. -/
structure Action where
  id : ActionId
  objectId : ObjectId
  friendlyName : String
  identifier : String
  method : HttpMethod
  route : String
  description : Option String
  returnValues : List ReturnValue
  deriving BEq

/-- What a new action is to be; the identifier is derived from the name where none is given. -/
structure NewAction where
  friendlyName : String
  identifier : Option String
  method : HttpMethod
  route : String
  description : Option String
  returnValues : List ReturnValue
  deriving BEq

end SchemaForge
