import SchemaForge.Store.Basic

/-!
# Loading a store from its rows

Rows are loaded one by one, parents before children, and each must meet the demands that a new row of
its table has to meet: its name is valid and not taken, its parent is there and belongs to the same
owner. Codes are not looked at.
-/

namespace SchemaForge.Store

/-- A row added under a number that no row of its table has yet. -/
def insertNew [Numbered α] (entity : Entity) (table : Table α) (row : α) :
    Except StoreError (Table α) :=
  if (table.find? (number row)).isSome then
    .error (.corrupt ⟨entity, number row, .sharedNumber⟩)
  else .ok (table.insert row)

/-- The row of a project is loaded. -/
def loadProject (s : Store) (row : ProjectRow) : Except StoreError Store := do
  demand (Naming.checkProjectName row.name)
  refuseTaken .project (s.projectNameTaken row.owner row.name none)
  return { s with projects := ← insertNew .project s.projects row }

/-- Is there an object of this number and owner? -/
def demandObject (s : Store) (owner : UserId) (id : ObjectId) : Except StoreError Unit :=
  match s.objects.find? id with
  | some parent => if parent.owner = owner then .ok () else .error (.objectNotFound id)
  | none => .error (.objectNotFound id)

/-- An object is loaded. -/
def loadObject (s : Store) (row : Object) : Except StoreError Store := do
  let _ ← s.project row.owner row.projectId
  demand (Naming.checkObjectName row.name)
  refuseTaken .object (s.objectNameTaken row.projectId row.name)
  return { s with objects := ← insertNew .object s.objects row }

/-- The row of an attribute is loaded. -/
def loadAttribute (s : Store) (row : AttributeRow) : Except StoreError Store := do
  s.demandObject row.owner row.objectId
  demand (Naming.checkAttributeName row.name)
  refuseTaken .attr (s.attributeNameTaken row.objectId row.name)
  return { s with attributes := ← insertNew .attr s.attributes row }

/-- The row of an action is loaded. -/
def loadAction (s : Store) (row : ActionRow) : Except StoreError Store := do
  s.demandObject row.owner row.action.objectId
  demand (Naming.checkActionIdentifier row.action.identifier)
  refuseTaken .action (s.actionTaken row.action.objectId row.action.identifier)
  return { s with actions := ← insertNew .action s.actions row }

/-- Rows are loaded one by one, up to the first that is refused. -/
def loadAll (load : Store → ρ → Except StoreError Store) (s : Store) :
    List ρ → Except StoreError Store
  | [] => .ok s
  | row :: rest => do loadAll load (← load s row) rest

/-- The store with these rows. -/
def ofSnapshot (snapshot : Snapshot) : Except StoreError Store := do
  let s ← loadAll loadProject empty snapshot.projects
  let s ← loadAll loadObject s snapshot.objects
  let s ← loadAll loadAttribute s snapshot.attributes
  loadAll loadAction s snapshot.actions

end SchemaForge.Store
