import SchemaForge.Service.Auth
import SchemaForge.Service.Payload

/-!
# Requests

A request is first understood, which needs nothing but the request, and then carried out. What is
understood is a command of a user to the store or the compiler.
-/

namespace SchemaForge

/-- What a request is about. -/
inductive Route
  | projects
  | project (id : ProjectId)
  | download (id : ProjectId)
  | objects (project : ProjectId) (object : Option ObjectId)
  | actions (project : ProjectId) (object : Option ObjectId)
  deriving DecidableEq

/-- A request as it comes in. -/
structure Request where
  route : Route
  method : String
  auth : AuthState
  body : Option Bytes
  deriving DecidableEq

/-- What a user asks for. -/
inductive Command
  | listProjects
  | createProject (p : NewProject)
  | getProject (id : ProjectId)
  | renameProject (id : ProjectId) (name : String)
  | deleteProject (id : ProjectId)
  | download (id : ProjectId)
  | listObjects (project : ProjectId)
  | getObject (project : ProjectId) (id : ObjectId)
  | createObject (project : ProjectId) (o : NewObject)
  | deleteObject (project : ProjectId) (id : ObjectId)
  | listActions (project : ProjectId) (object : ObjectId)
  | createAction (project : ProjectId) (object : ObjectId) (a : NewAction)

/-- What a request comes to: a question what is allowed, or a command of a user. -/
inductive Demand
  | preflight
  | command (user : UserId) (c : Command)

namespace Request

/-- The method of a request. -/
def httpMethod (r : Request) : Except ApiError HttpMethod :=
  match HttpMethod.ofName? r.method with
  | some m => .ok m
  | none => .error .invalidMethod

/-- The user who makes a request. -/
def user (r : Request) : Except ApiError UserId :=
  match r.auth.user? with
  | some user => .ok user
  | none => .error .unauthenticated

/-- The command of a request to the list of projects. -/
def projectsCommand (r : Request) : HttpMethod → Except ApiError Command
  | .get => .ok .listProjects
  | .post => do
    let name ← Body.requiredText (← Body.members r.body) "name"
    return .createProject ⟨name, .sailsJs⟩
  | .put | .delete => .error .invalidMethod

/-- The command of a request to a project. -/
def projectCommand (r : Request) (id : ProjectId) : HttpMethod → Except ApiError Command
  | .get => .ok (.getProject id)
  | .put => do return .renameProject id (← Body.requiredText (← Body.members r.body) "name")
  | .delete => .ok (.deleteProject id)
  | .post => .error .invalidMethod

/-- The command of a request to the objects of a project. -/
def objectsCommand (r : Request) (project : ProjectId) (object : Option ObjectId) :
    HttpMethod → Except ApiError Command
  | .get =>
    match object with
    | some id => .ok (.getObject project id)
    | none => .ok (.listObjects project)
  | .post => do return .createObject project (← Body.newObject (← Body.members r.body))
  | .delete =>
    match object with
    | some id => .ok (.deleteObject project id)
    | none => .error (.missingSegment "object")
  | .put => .error .invalidMethod

/-- The command of a request to the actions of an object. -/
def actionsCommand (r : Request) (project : ProjectId) (object : ObjectId) :
    HttpMethod → Except ApiError Command
  | .get => .ok (.listActions project object)
  | .post => do return .createAction project object (← Body.newAction (← Body.members r.body))
  | .put | .delete => .error .invalidMethod

/-- What a request comes to. The user is asked for first, but for downloads, where the method comes
first, and for actions, where the object does. -/
def demand (r : Request) : Except ApiError Demand :=
  match r.route with
  | .projects => do
    let user ← r.user
    return .command user (← r.projectsCommand (← r.httpMethod))
  | .project id => do
    let user ← r.user
    return .command user (← r.projectCommand id (← r.httpMethod))
  | .download id => do
    if (← r.httpMethod) ≠ .get then throw .invalidMethod
    return .command (← r.user) (.download id)
  | .objects project object => do
    if Text.sameIgnoringCase r.method "OPTIONS" then return .preflight
    let user ← r.user
    return .command user (← r.objectsCommand project object (← r.httpMethod))
  | .actions _ none => throw (.missingSegment "object")
  | .actions project (some object) => do
    let user ← r.user
    return .command user (← r.actionsCommand project object (← r.httpMethod))

end Request

end SchemaForge
