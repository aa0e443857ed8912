import SchemaForge.Schema.Payload
import SchemaForge.Store.Error
import SchemaForge.Text.Case

/-!
# The store

Four tables and the requests on them. Every request names the user it comes from and sees only rows
of that user. A request that writes answers with the outcome and the store after it; its demands are
stated as a function of their own, which changes nothing.
-/

namespace SchemaForge

/-- The schemas of all users. -/
structure Store where
  projects : Table ProjectRow
  objects : Table Object
  attributes : Table AttributeRow
  actions : Table ActionRow

namespace Store

/-- The store without rows. -/
def empty : Store := ⟨.empty, .empty, .empty, .empty⟩

/-- All rows, table by table in the order of their numbers. -/
def snapshot (s : Store) : Snapshot :=
  ⟨s.projects.rows, s.objects.rows, s.attributes.rows, s.actions.rows⟩

/-! ### Finding rows -/

/-- The row of a project of the user. -/
def project (s : Store) (owner : UserId) (id : ProjectId) : Except StoreError ProjectRow :=
  match s.projects.find? id with
  | some row => if row.owner = owner then .ok row else .error (.projectNotFound id)
  | none => .error (.projectNotFound id)

/-- An object of a project of the user. -/
def object (s : Store) (owner : UserId) (projectId : ProjectId) (id : ObjectId) :
    Except StoreError Object := do
  let _ ← s.project owner projectId
  match s.objects.find? id with
  | some row =>
    if row.owner = owner ∧ row.projectId = projectId then .ok row else .error (.objectNotFound id)
  | none => .error (.objectNotFound id)

/-! ### Reading -/

/-- A row decoded, or the refusal of a corrupt one. -/
def decoded (r : Except CorruptRow α) : Except StoreError α := r.mapError .corrupt

/-- Rows decoded in order, up to the first corrupt one. -/
def decodedAll (decode : ρ → Except CorruptRow α) : List ρ → Except StoreError (List α)
  | [] => .ok []
  | row :: rest => do
    let a ← decoded (decode row)
    let as ← decodedAll decode rest
    return a :: as

/-- A project of the user. -/
def getProject (s : Store) (owner : UserId) (id : ProjectId) : Except StoreError Project := do
  decoded (← s.project owner id).toProject

/-- The projects of the user. -/
def listProjects (s : Store) (owner : UserId) : Except StoreError (List Project) :=
  decodedAll ProjectRow.toProject (s.projects.rows.filter fun row => row.owner == owner)

/-- An object of a project of the user. -/
def getObject (s : Store) (owner : UserId) (projectId : ProjectId) (id : ObjectId) :
    Except StoreError Object :=
  s.object owner projectId id

/-- The objects of a project of the user. -/
def listObjects (s : Store) (owner : UserId) (projectId : ProjectId) :
    Except StoreError (List Object) := do
  let _ ← s.project owner projectId
  return s.objects.rows.filter fun row => row.owner == owner && row.projectId == projectId

/-- The attributes of an object of the user. -/
def listAttributes (s : Store) (owner : UserId) (objectId : ObjectId) :
    Except StoreError (List Attribute) :=
  match s.objects.find? objectId with
  | some row =>
    if row.owner = owner then
      decodedAll AttributeRow.toAttribute
        (s.attributes.rows.filter fun row => row.objectId == objectId)
    else .error (.objectNotFound objectId)
  | none => .error (.objectNotFound objectId)

/-- The actions of an object of the user. -/
def listActions (s : Store) (owner : UserId) (projectId : ProjectId) (objectId : ObjectId) :
    Except StoreError (List Action) := do
  let _ ← s.object owner projectId objectId
  return (s.actions.rows.filter fun row => row.action.objectId == objectId).map ActionRow.action

/-! ### Names that are taken -/

/-- Has the user a project of this name, `except` apart? -/
def projectNameTaken (s : Store) (owner : UserId) (name : String) (except : Option ProjectId) :
    Bool :=
  s.projects.rows.any fun row => row.owner == owner && some row.id != except && row.name == name

/-- Has the project an object whose name differs from this one at most in case? -/
def objectNameTaken (s : Store) (projectId : ProjectId) (name : String) : Bool :=
  s.objects.rows.any fun row => row.projectId == projectId && Text.sameIgnoringCase row.name name

/-- Has the object an attribute of this name? -/
def attributeNameTaken (s : Store) (objectId : ObjectId) (name : String) : Bool :=
  s.attributes.rows.any fun row => row.objectId == objectId && row.name == name

/-- Has the object an action of this identifier? -/
def actionTaken (s : Store) (objectId : ObjectId) (identifier : String) : Bool :=
  s.actions.rows.any fun row =>
    row.action.objectId == objectId && row.action.identifier == identifier

/-- The refusal of a name that is taken. -/
def refuseTaken (entity : Entity) (taken : Bool) : Except StoreError Unit :=
  if taken then .error (.duplicate entity) else .ok ()

/-! ### Demands of the writing requests -/

/-- What a new project must meet. -/
def admitProject (s : Store) (owner : UserId) (p : NewProject) : Except StoreError Unit := do
  demand (Naming.checkProjectName p.name)
  refuseTaken .project (s.projectNameTaken owner p.name none)

/-- What a new name of a project must meet; the answer is the row as it is. -/
def admitRename (s : Store) (owner : UserId) (id : ProjectId) (name : String) :
    Except StoreError ProjectRow := do
  demand (Naming.checkProjectName name)
  let row ← s.project owner id
  refuseTaken .project (s.projectNameTaken owner name (some id))
  return row

/-- What a new object must meet. -/
def admitObject (s : Store) (owner : UserId) (projectId : ProjectId) (o : NewObject) :
    Except StoreError Unit := do
  demand o.check
  let _ ← s.project owner projectId
  refuseTaken .object (s.objectNameTaken projectId o.name)
  refuseTaken .attr (!(repeatedNames o.attributes).isEmpty)

/-- What a new action must meet. -/
def admitAction (s : Store) (owner : UserId) (projectId : ProjectId) (objectId : ObjectId)
    (a : NewAction) : Except StoreError Unit := do
  demand (a.check a.resolvedIdentifier)
  let _ ← s.object owner projectId objectId
  refuseTaken .action (s.actionTaken objectId a.resolvedIdentifier)

/-! ### Writing -/

/-- A new project of the user. -/
def createProject (s : Store) (now : Instant) (owner : UserId) (p : NewProject) :
    Except StoreError Project × Store :=
  match s.admitProject owner p with
  | .error e => (.error e, s)
  | .ok () =>
    let row : ProjectRow := ⟨s.projects.nextNumber, p.name, owner, p.language.code, now⟩
    (decoded row.toProject, { s with projects := s.projects.insert row })

/-- A new name for a project of the user. The name is written before the row is decoded. -/
def renameProject (s : Store) (owner : UserId) (id : ProjectId) (name : String) :
    Except StoreError Project × Store :=
  match s.admitRename owner id name with
  | .error e => (.error e, s)
  | .ok row =>
    let row := { row with name }
    (decoded row.toProject, { s with projects := s.projects.insert row })

/-- The attributes and actions of one object are removed. -/
def removeChildren (s : Store) (objectId : ObjectId) : Store :=
  { s with
    attributes := s.attributes.filter fun row => row.objectId != objectId
    actions := s.actions.filter fun row => row.action.objectId != objectId }

/-- One object is removed with its attributes and actions. -/
def removeObject (s : Store) (objectId : ObjectId) : Store :=
  let s := s.removeChildren objectId
  { s with objects := s.objects.erase objectId }

/-- A project of the user is removed with its objects and all that belongs to them. -/
def deleteProject (s : Store) (owner : UserId) (id : ProjectId) : Except StoreError Unit × Store :=
  match s.project owner id with
  | .error e => (.error e, s)
  | .ok _ =>
    let objectIds := (s.objects.rows.filter fun row => row.projectId == id).map Object.id
    let s := objectIds.foldl removeObject s
    (.ok (), { s with projects := s.projects.erase id })

/-- The attributes of a new object are added in order. -/
def addAttributes (owner : UserId) (objectId : ObjectId) (table : Table AttributeRow)
    (attributes : List NewAttribute) : Table AttributeRow :=
  attributes.foldl
    (fun table a =>
      table.insert
        ⟨table.nextNumber, objectId, owner, a.name, a.type.code, a.required, a.description⟩)
    table

/-- A new object in a project of the user, with its attributes. -/
def createObject (s : Store) (now : Instant) (owner : UserId) (projectId : ProjectId)
    (o : NewObject) : Except StoreError Object × Store :=
  match s.admitObject owner projectId o with
  | .error e => (.error e, s)
  | .ok () =>
    let row : Object := ⟨s.objects.nextNumber, o.name, projectId, owner, now⟩
    (.ok row,
      { s with
        objects := s.objects.insert row
        attributes := addAttributes owner row.id s.attributes o.attributes })

/-- An object of a project of the user is removed with all that belongs to it. -/
def deleteObject (s : Store) (owner : UserId) (projectId : ProjectId) (id : ObjectId) :
    Except StoreError Unit × Store :=
  match s.object owner projectId id with
  | .error e => (.error e, s)
  | .ok _ => (.ok (), s.removeObject id)

/-- A new action of an object of the user. -/
def createAction (s : Store) (owner : UserId) (projectId : ProjectId) (objectId : ObjectId)
    (a : NewAction) : Except StoreError Action × Store :=
  match s.admitAction owner projectId objectId a with
  | .error e => (.error e, s)
  | .ok () =>
    let created : Action :=
      ⟨s.actions.nextNumber, objectId, a.friendlyName, a.resolvedIdentifier, a.method, a.route,
        a.description, a.returnValues⟩
    (.ok created, { s with actions := s.actions.insert ⟨owner, created⟩ })

end Store

end SchemaForge
