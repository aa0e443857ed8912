import SchemaForge.Compile.Run
import SchemaForge.Service.Request

/-!
# The service

A service has a store, the files around it and settings. It answers one request after the other.
-/

namespace SchemaForge

/-- The state of a service. -/
structure Service where
  store : Store
  files : FileTree
  config : CompilerConfig

namespace Service

/-- What the store answers to a command that reads, as members of a JSON object. -/
def reading (r : Except StoreError α) (members : α → List (String × Json)) :
    Except ApiError Response :=
  match r with
  | .ok a => .ok (.ok (members a))
  | .error e => .error (.ofStore e)

/-- A JSON list. -/
def listed (c : Codec α) (as : List α) : Json := (Codec.list c).encode as

/-- An object with its attributes and actions. -/
def detailed (o : Object) (attributes : List Attribute) (actions : List Action) : Json :=
  match Object.codec.encode o with
  | .object members =>
    .object (members ++
      [("attributes", listed Attribute.codec attributes), ("actions", listed Action.codec actions)])
  | j => j

/-- An object of a project of the user, with all that belongs to it. -/
def objectWithParts (s : Store) (user : UserId) (project : ProjectId) (id : ObjectId) :
    Except StoreError Json := do
  let o ← s.getObject user project id
  let attributes ← s.listAttributes user id
  let actions ← s.listActions user project id
  return detailed o attributes actions

/-- A message as the member of an object. -/
def said (message : String) : String × Json := ("message", .text message)

/-- What the store answers to a command that writes, and the service with the store after it. -/
def writing (w : Service) (r : Except StoreError α × Store) (answer : α → Response) :
    Except ApiError Response × Service :=
  match r with
  | (.ok a, s) => (.ok (answer a), { w with store := s })
  | (.error e, s) => (.error (.ofStore e), { w with store := s })

/-- A compiled archive as an answer, and the service with the files after the compile. -/
def download (w : Service) (user : UserId) (id : ProjectId) : Except ApiError Response × Service :=
  match w.store.compileOn w.config user id w.files with
  | (.ok a, files) => (.ok (.attachment a.fileName a.bytes), { w with files })
  | (.error e, files) => (.error (.ofCompile e), { w with files })

/-- A command is carried out. -/
def perform (w : Service) (now : Instant) (user : UserId) :
    Command → Except ApiError Response × Service
  | .listProjects =>
    (reading (w.store.listProjects user) fun ps => [("projects", listed Project.codec ps)], w)
  | .createProject p =>
    w.writing (w.store.createProject now user p) fun _ => .created [said "Project created"]
  | .getProject id =>
    (reading (w.store.getProject user id) fun p => [("project", Project.codec.encode p)], w)
  | .renameProject id name =>
    w.writing (w.store.renameProject user id name) fun p =>
      .ok [said "Project updated", ("project", Project.codec.encode p)]
  | .deleteProject id =>
    w.writing (w.store.deleteProject user id) fun _ => .ok [said "Project deleted"]
  | .download id => w.download user id
  | .listObjects project =>
    (reading (w.store.listObjects user project) fun os => [("objects", listed Object.codec os)], w)
  | .getObject project id =>
    (reading (objectWithParts w.store user project id) fun j => [("object", j)], w)
  | .createObject project o =>
    w.writing (w.store.createObject now user project o) fun _ => .ok [said "Object created"]
  | .deleteObject project id =>
    w.writing (w.store.deleteObject user project id) fun _ => .ok [said "Object deleted"]
  | .listActions project object =>
    (reading (w.store.listActions user project object) fun as =>
      [("actions", listed Action.codec as)], w)
  | .createAction project object a =>
    w.writing (w.store.createAction user project object a) fun _ => .ok [said "Action created"]

/-- The response to the outcome of a request. -/
def respond : Except ApiError Response → Response
  | .ok r => r
  | .error e => e.response

/-- The response to a request that comes in at the instant `now`, and the service after it. -/
def answer (w : Service) (now : Instant) (r : Request) : Response × Service :=
  match r.demand with
  | .error e => (e.response, w)
  | .ok .preflight => (.empty 200, w)
  | .ok (.command user c) =>
    let (outcome, w) := w.perform now user c
    (respond outcome, w)

end Service

end SchemaForge
