import SchemaForge.Schema.Records
import SchemaForge.Store.Table

/-!
# Rows

What the store keeps. Rows of projects and attributes hold numbers for languages and types; a number
that stands for nothing makes the row corrupt, which shows when the row is read. Objects and actions
are kept as they are answered.
-/

namespace SchemaForge

/-- The tables of the store. -/
inductive Entity
  | project
  | object
  | attr
  | action
  deriving DecidableEq, Repr

/-- The name of a table. -/
def Entity.label : Entity → String
  | project => "project"
  | object => "object"
  | attr => "attribute"
  | action => "action"

/-- What is wrong with a row. -/
inductive Corruption
  | unknownLanguage (code : UInt8)
  | unknownType (code : UInt8)
  | sharedNumber
  | other (reason : String)
  deriving DecidableEq

/-- The fault in words. -/
def Corruption.message : Corruption → String
  | unknownLanguage code => s!"Unknown language code: {code}"
  | unknownType code => s!"Unknown attribute type code: {code}"
  | sharedNumber => "id is used by more than one row"
  | other reason => reason

/-- A row that cannot be read. -/
structure CorruptRow where
  table : Entity
  id : UInt64
  reason : Corruption
  deriving DecidableEq

/-- The row and its fault in words. -/
def CorruptRow.message (c : CorruptRow) : String :=
  s!"Corrupt {c.table.label} record id={c.id}: {c.reason.message}"

/-- The row of a project. -/
structure ProjectRow where
  id : ProjectId
  name : String
  owner : UserId
  languageCode : UInt8
  createdAt : Instant
  deriving DecidableEq

/-- The row of an attribute. -/
structure AttributeRow where
  id : AttributeId
  objectId : ObjectId
  owner : UserId
  name : String
  typeCode : UInt8
  required : Bool
  description : Option String
  deriving DecidableEq

/-- The row of an action. -/
structure ActionRow where
  owner : UserId
  action : Action
  deriving BEq

instance : Numbered ProjectRow := ⟨ProjectRow.id⟩

instance : Numbered Object := ⟨Object.id⟩

instance : Numbered AttributeRow := ⟨AttributeRow.id⟩

instance : Numbered ActionRow := ⟨fun row => row.action.id⟩

/-- The project of a row. -/
def ProjectRow.toProject (row : ProjectRow) : Except CorruptRow Project :=
  match TargetLanguage.ofCode? row.languageCode with
  | some language => .ok ⟨row.id, row.name, row.owner, language, row.createdAt⟩
  | none => .error ⟨.project, row.id, .unknownLanguage row.languageCode⟩

/-- The attribute of a row. -/
def AttributeRow.toAttribute (row : AttributeRow) : Except CorruptRow Attribute :=
  match AttributeType.ofCode? row.typeCode with
  | some type => .ok ⟨row.id, row.objectId, row.name, type, row.required, row.description⟩
  | none => .error ⟨.attr, row.id, .unknownType row.typeCode⟩

/-- All rows of a store. -/
structure Snapshot where
  projects : List ProjectRow
  objects : List Object
  attributes : List AttributeRow
  actions : List ActionRow
  deriving BEq

end SchemaForge
