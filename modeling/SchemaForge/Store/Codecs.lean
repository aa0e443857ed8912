import SchemaForge.Schema.Codecs
import SchemaForge.Store.Loading

/-!
# JSON form of rows

Rows are written like records, with numbers for languages and types. The members of an action stand
beside the owner of its row. A row without an instant of creation is taken to be created now.
-/

namespace SchemaForge

open Json

/-- The row of a project. -/
def ProjectRow.codec (now : Instant) : Codec ProjectRow :=
  .record "struct ProjectRow"
    (.field (.required "id" .word64) <| .field (.required "name" .text) <|
      .field (.required "owner" .word64) <|
      .field (.withDefault "language" .word8 TargetLanguage.sailsJs.code) <|
      .field (.withDefault "created_at" .instant now) .done)
    (fun r => (r.id, r.name, r.owner, r.languageCode, r.createdAt, ()))
    (fun (id, name, owner, code, createdAt, ()) => ⟨id, name, owner, code, createdAt⟩)

/-- The row of an object. -/
def Object.rowCodec (now : Instant) : Codec Object :=
  .record "struct ObjectRow"
    (.field (.required "id" .word64) <| .field (.required "name" .text) <|
      .field (.required "project_id" .word64) <| .field (.required "owner" .word64) <|
      .field (.withDefault "created_at" .instant now) .done)
    (fun o => (o.id, o.name, o.projectId, o.owner, o.createdAt, ()))
    (fun (id, name, projectId, owner, createdAt, ()) => ⟨id, name, projectId, owner, createdAt⟩)

/-- The row of an attribute. -/
def AttributeRow.codec : Codec AttributeRow :=
  .record "struct AttributeRow"
    (.field (.required "id" .word64) <| .field (.required "object_id" .word64) <|
      .field (.required "owner" .word64) <| .field (.required "name" .text) <|
      .field (.required "type" .word8) <| .field (.withDefault "required" .bool false) <|
      .field (.optional "description" .text) .done)
    (fun r => (r.id, r.objectId, r.owner, r.name, r.typeCode, r.required, r.description, ()))
    (fun (id, objectId, owner, name, code, required, description, ()) =>
      ⟨id, objectId, owner, name, code, required, description⟩)

/-- The owner among the members of an action's row, if it is there, and the other members. -/
def ActionRow.splitOwner (src : Source) :
    Option UserId → List (Reading String × Doc) →
      Except JsonError (Option UserId × List (String × Json))
  | owner, [] => .ok (owner, [])
  | owner, (k, d) :: rest => do
    let k ← k.value
    if k = "owner" then
      if owner.isSome then throw (.duplicateField "owner")
      let id ← Codec.word64.decode src d
      splitOwner src (some id) rest
    else
      let j ← d.content src
      let (owner, others) ← splitOwner src owner rest
      return (owner, (k, j) :: others)

/-- The row of an action. -/
def ActionRow.codec : Codec ActionRow where
  encode row :=
    match Action.codec.encode row.action with
    | .object members => .object (("owner", .ofWord row.owner) :: members)
    | j => j
  decode src d :=
    match d with
    | .object members stop => do
      let inner ← src.enter
      let (owner, others) ← splitOwner inner none members
      orElseDone stop.objectError?
      match owner with
      | some owner => return ⟨owner, ← Action.codec.decode .held (.ofJson (.object others))⟩
      | none => throw (.missingField "owner")
    | d => d.mismatch "struct ActionRow"

/-- All rows of a store. -/
def Snapshot.codec (now : Instant) : Codec Snapshot :=
  .record "struct SchemaSnapshot"
    (.field (.withDefault "projects" (.list (ProjectRow.codec now)) []) <|
      .field (.withDefault "objects" (.list (Object.rowCodec now)) []) <|
      .field (.withDefault "attributes" (.list AttributeRow.codec) []) <|
      .field (.withDefault "actions" (.list ActionRow.codec) []) .done)
    (fun s => (s.projects, s.objects, s.attributes, s.actions, ()))
    (fun (projects, objects, attributes, actions, ()) => ⟨projects, objects, attributes, actions⟩)

end SchemaForge
