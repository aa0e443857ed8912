import SchemaForge.Proofs.Service.Bodies
import SchemaForge.Service.Basic

/-!
# Refusals before anything is done

What a request comes to needs nothing but the request, so whatever is wrong with it is for the one
who made it to put right. No body, however malformed, is a fault of the service.
-/

namespace SchemaForge

/-- Is a refusal for something about the request, and not for a fault of the service? -/
def ApiError.AboutRequest : ApiError → Prop
  | internal _ => False
  | _ => True

open ApiError (AboutRequest)

theorem ApiError.AboutRequest.status_ne {e : ApiError} (h : e.AboutRequest) : e.status ≠ 500 := by
  cases e with
  | internal detail => exact h.elim
  | unauthenticated | invalidMethod | projectNotFound | objectNotFound | missingSegment
  | missingBody | invalidBody | missingParameter | missingAttributeParameter | invalidParameter
  | naming | duplicate =>
    simp [status]

namespace Body

variable {members : List (String × Json)} {field : String}

theorem refuses_members (body : Option Bytes) : Refuses AboutRequest (Body.members body) := by
  unfold Body.members
  split
  · exact .error trivial
  · exact .error trivial
  · split
    · exact .ok _
    · exact .error trivial
    · exact .error trivial

theorem refuses_optionalText : Refuses AboutRequest (optionalText members field) := by
  unfold optionalText
  split
  · exact .ok _
  · exact .ok _
  · exact .ok _
  · exact .error trivial

theorem refuses_requiredText : Refuses AboutRequest (requiredText members field) := by
  apply refuses_optionalText.bind
  intro s? _
  rcases s? with _ | s
  · exact .error trivial
  · exact .ok s

theorem refuses_decodeParameter {α : Type} {c : Codec α} {j : Json} :
    Refuses AboutRequest (decodeParameter c field j) := by
  unfold decodeParameter
  split
  · exact .ok _
  · exact .error trivial

theorem refuses_requiredFlag : Refuses AboutRequest (requiredFlag members) := by
  unfold requiredFlag
  split
  · exact .ok _
  · exact .ok _
  · exact .ok _
  · exact .error trivial

theorem refuses_newAttribute (item : Json) : Refuses AboutRequest (newAttribute item) := by
  unfold newAttribute
  dsimp only
  split
  · split
    · rw [pure_bind]
      split
      · exact .error trivial
      · exact .error trivial
      · apply refuses_decodeParameter.bind
        intro type _
        apply refuses_requiredFlag.bind
        intro required _
        exact refuses_optionalText.bind fun _ _ => .ok _
    · exact .error trivial
  · exact .error trivial

theorem refuses_newAttributes (items : List Json) :
    Refuses AboutRequest (newAttributes items) := by
  induction items with
  | nil => exact .ok []
  | cons item rest ih => exact (refuses_newAttribute item).bind fun _ _ => ih.bind fun _ _ => .ok _

theorem refuses_attributes : Refuses AboutRequest (attributes members) := by
  unfold attributes
  split
  · exact .ok []
  · exact refuses_newAttributes _
  · exact .error trivial

theorem refuses_newObject : Refuses AboutRequest (newObject members) := by
  rw [newObject_eq]
  apply refuses_requiredText.bind
  intro name _
  exact refuses_attributes.bind fun _ _ => .ok _

theorem refuses_method : Refuses AboutRequest (method members) := by
  apply refuses_requiredText.bind
  intro name _
  split
  · exact .ok _
  · exact .error trivial

theorem refuses_returnValues : Refuses AboutRequest (returnValues members) := by
  unfold returnValues
  split
  · exact .ok []
  · exact refuses_decodeParameter

theorem refuses_newAction : Refuses AboutRequest (newAction members) := by
  rw [newAction_eq]
  apply refuses_requiredText.bind
  intro friendlyName _
  apply refuses_requiredText.bind
  intro route _
  apply refuses_method.bind
  intro method _
  apply refuses_returnValues.bind
  intro values _
  exact refuses_optionalText.bind fun _ _ => refuses_optionalText.bind fun _ _ => .ok _

end Body

namespace Request

variable {r : Request}

theorem refuses_httpMethod : Refuses AboutRequest r.httpMethod := by
  unfold httpMethod
  split
  · exact .ok _
  · exact .error trivial

theorem refuses_user : Refuses AboutRequest r.user := by
  unfold user
  split
  · exact .ok _
  · exact .error trivial

/-- A command that is made of what is read from the body. -/
theorem refuses_body {α β : Type} {read : List (String × Json) → Except ApiError α} {make : α → β}
    (h : ∀ members, Refuses AboutRequest (read members)) :
    Refuses AboutRequest (do return make (← read (← Body.members r.body))) :=
  (Body.refuses_members r.body).bind fun members _ => (h members).bind fun _ _ => .ok _

theorem refuses_projectsCommand (m : HttpMethod) : Refuses AboutRequest (r.projectsCommand m) := by
  cases m with
  | get => exact .ok _
  | post => exact refuses_body fun _ => Body.refuses_requiredText
  | put | delete => exact .error trivial

theorem refuses_projectCommand (id : ProjectId) (m : HttpMethod) :
    Refuses AboutRequest (r.projectCommand id m) := by
  cases m with
  | get | delete => exact .ok _
  | put => exact refuses_body fun _ => Body.refuses_requiredText
  | post => exact .error trivial

theorem refuses_objectsCommand (project : ProjectId) (object : Option ObjectId) (m : HttpMethod) :
    Refuses AboutRequest (r.objectsCommand project object m) := by
  cases m with
  | get =>
    cases object with
    | none | some => exact .ok _
  | post => exact refuses_body fun _ => Body.refuses_newObject
  | put => exact .error trivial
  | delete =>
    cases object with
    | none => exact .error trivial
    | some => exact .ok _

theorem refuses_actionsCommand (project : ProjectId) (object : ObjectId) (m : HttpMethod) :
    Refuses AboutRequest (r.actionsCommand project object m) := by
  cases m with
  | get => exact .ok _
  | post => exact refuses_body fun _ => Body.refuses_newAction
  | put | delete => exact .error trivial

theorem refuses_command {command : HttpMethod → Except ApiError Command}
    (h : ∀ m, Refuses AboutRequest (command m)) :
    Refuses AboutRequest (do
      let user ← r.user
      return Demand.command user (← command (← r.httpMethod))) := by
  apply refuses_user.bind
  intro user _
  apply refuses_httpMethod.bind
  intro m _
  exact (h m).bind fun _ _ => .ok _

/-- Whatever a request is, it is not a fault of the service that it comes to nothing. -/
theorem refuses_demand (r : Request) : Refuses AboutRequest r.demand := by
  unfold demand
  split
  · exact refuses_command refuses_projectsCommand
  · exact refuses_command (refuses_projectCommand _)
  · apply refuses_httpMethod.bind
    intro m _
    split
    · exact .error trivial
    · exact refuses_user.bind fun _ _ => .ok _
  · split
    · exact .ok _
    · exact refuses_command (refuses_objectsCommand _ _)
  · exact .error trivial
  · exact refuses_command (refuses_actionsCommand _ _)

end Request

end SchemaForge
