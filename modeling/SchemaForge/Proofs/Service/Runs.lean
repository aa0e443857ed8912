import SchemaForge.Proofs.Store.Failure

/-!
# Requests to the service one after the other

What a request comes to shows who makes it, and what it does to the store is a request to the store.
So the stores of a service that answers requests are stores that runs of requests to the store lead
to, as long as the numbers for new rows do not run out.
-/

namespace SchemaForge

/-! ### What a request comes to -/

namespace Request

variable {r : Request} {user : UserId} {c : Command}

theorem user_eq_ok_iff : r.user = .ok user ↔ r.auth = .authenticated user := by
  unfold Request.user AuthState.user?
  cases r.auth with
  | anonymous => simp
  | authenticated user' => simp

/-- The command that a request comes to, by its route and its method and by what the body holds. -/
inductive ComesTo (body : Option Bytes) : Route → HttpMethod → Command → Prop
  | listProjects : ComesTo body .projects .get .listProjects
  | createProject {members : List (String × Json)} {name : String}
      (holds : Body.members body = .ok members)
      (named : Body.requiredText members "name" = .ok name) :
      ComesTo body .projects .post (.createProject ⟨name, .sailsJs⟩)
  | getProject {id : ProjectId} : ComesTo body (.project id) .get (.getProject id)
  | renameProject {id : ProjectId} {members : List (String × Json)} {name : String}
      (holds : Body.members body = .ok members)
      (named : Body.requiredText members "name" = .ok name) :
      ComesTo body (.project id) .put (.renameProject id name)
  | deleteProject {id : ProjectId} : ComesTo body (.project id) .delete (.deleteProject id)
  | download {id : ProjectId} : ComesTo body (.download id) .get (.download id)
  | listObjects {project : ProjectId} :
      ComesTo body (.objects project none) .get (.listObjects project)
  | getObject {project : ProjectId} {id : ObjectId} :
      ComesTo body (.objects project (some id)) .get (.getObject project id)
  | createObject {project : ProjectId} {segment : Option ObjectId}
      {members : List (String × Json)} {o : NewObject} (holds : Body.members body = .ok members)
      (read : Body.newObject members = .ok o) :
      ComesTo body (.objects project segment) .post (.createObject project o)
  | deleteObject {project : ProjectId} {id : ObjectId} :
      ComesTo body (.objects project (some id)) .delete (.deleteObject project id)
  | listActions {project : ProjectId} {object : ObjectId} :
      ComesTo body (.actions project (some object)) .get (.listActions project object)
  | createAction {project : ProjectId} {object : ObjectId} {members : List (String × Json)}
      {a : NewAction} (holds : Body.members body = .ok members)
      (read : Body.newAction members = .ok a) :
      ComesTo body (.actions project (some object)) .post (.createAction project object a)

theorem comesTo_of_projectsCommand {m : HttpMethod} (h : r.projectsCommand m = .ok c) :
    ComesTo r.body .projects m c := by
  cases m with
  | get =>
    cases h
    exact .listProjects
  | post =>
    obtain ⟨members, hmembers, h⟩ := bind_eq_ok_iff.mp h
    obtain ⟨name, hname, h⟩ := bind_eq_ok_iff.mp h
    cases h
    exact .createProject hmembers hname
  | put | delete => cases h

theorem comesTo_of_projectCommand {id : ProjectId} {m : HttpMethod}
    (h : r.projectCommand id m = .ok c) : ComesTo r.body (.project id) m c := by
  cases m with
  | get =>
    cases h
    exact .getProject
  | put =>
    obtain ⟨members, hmembers, h⟩ := bind_eq_ok_iff.mp h
    obtain ⟨name, hname, h⟩ := bind_eq_ok_iff.mp h
    cases h
    exact .renameProject hmembers hname
  | delete =>
    cases h
    exact .deleteProject
  | post => cases h

theorem comesTo_of_objectsCommand {project : ProjectId} {segment : Option ObjectId}
    {m : HttpMethod} (h : r.objectsCommand project segment m = .ok c) :
    ComesTo r.body (.objects project segment) m c := by
  cases m with
  | get =>
    cases segment with
    | none =>
      cases h
      exact .listObjects
    | some id =>
      cases h
      exact .getObject
  | post =>
    obtain ⟨members, hmembers, h⟩ := bind_eq_ok_iff.mp h
    obtain ⟨o, ho, h⟩ := bind_eq_ok_iff.mp h
    cases h
    exact .createObject hmembers ho
  | delete =>
    cases segment with
    | none => cases h
    | some id =>
      cases h
      exact .deleteObject
  | put => cases h

theorem comesTo_of_actionsCommand {project : ProjectId} {object : ObjectId} {m : HttpMethod}
    (h : r.actionsCommand project object m = .ok c) :
    ComesTo r.body (.actions project (some object)) m c := by
  cases m with
  | get =>
    cases h
    exact .listActions
  | post =>
    obtain ⟨members, hmembers, h⟩ := bind_eq_ok_iff.mp h
    obtain ⟨a, ha, h⟩ := bind_eq_ok_iff.mp h
    cases h
    exact .createAction hmembers ha
  | put | delete => cases h

/-- On most routes the user comes first, then the method and then the command. -/
theorem comesTo_of_command {command : HttpMethod → Except ApiError Command} {route : Route}
    (hroute : r.route = route) (hcommand : ∀ m, command m = .ok c → ComesTo r.body route m c)
    (h : (do let user ← r.user; return .command user (← command (← r.httpMethod))) =
      Except.ok (Demand.command user c)) :
    r.user = .ok user ∧ ∃ m, r.httpMethod = .ok m ∧ ComesTo r.body r.route m c := by
  obtain ⟨user', huser, h⟩ := bind_eq_ok_iff.mp h
  obtain ⟨m, hm, h⟩ := bind_eq_ok_iff.mp h
  obtain ⟨c', hc, h⟩ := bind_eq_ok_iff.mp h
  cases h
  exact ⟨huser, m, hm, hroute ▸ hcommand m hc⟩

/-- Whoever comes to a command is signed in and asks for it by route and method. -/
theorem comesTo_of_demand (h : r.demand = .ok (.command user c)) :
    r.user = .ok user ∧ ∃ m, r.httpMethod = .ok m ∧ ComesTo r.body r.route m c := by
  unfold demand at h
  split at h
  · next hroute => exact comesTo_of_command hroute (fun _ => comesTo_of_projectsCommand) h
  · next hroute => exact comesTo_of_command hroute (fun _ => comesTo_of_projectCommand) h
  · next id hroute =>
    obtain ⟨m, hm, h⟩ := bind_eq_ok_iff.mp h
    split at h
    · cases h
    · next hget =>
      obtain rfl := not_not.mp hget
      obtain ⟨user', huser, h⟩ := bind_eq_ok_iff.mp h
      cases h
      exact ⟨huser, .get, hm, hroute ▸ .download⟩
  · next hroute =>
    split at h
    · cases h
    · exact comesTo_of_command hroute (fun _ => comesTo_of_objectsCommand) h
  · cases h
  · next hroute => exact comesTo_of_command hroute (fun _ => comesTo_of_actionsCommand) h

theorem auth_of_demand (h : r.demand = .ok (.command user c)) : r.auth = .authenticated user :=
  user_eq_ok_iff.mp (comesTo_of_demand h).1

end Request

namespace Service

variable {w : Service} {now : Instant} {r : Request} {user : UserId} {c : Command}

/-! ### One request -/

theorem answer_of_refused {e : ApiError} (h : r.demand = .error e) :
    w.answer now r = (e.response, w) := by
  simp only [answer, h]

theorem answer_of_preflight (h : r.demand = .ok .preflight) :
    w.answer now r = (.empty 200, w) := by
  simp only [answer, h]

theorem answer_of_command (h : r.demand = .ok (.command user c)) :
    w.answer now r = (respond (w.perform now user c).1, (w.perform now user c).2) := by
  simp only [answer, h]

/-- A download asked for in the right way is carried out. -/
theorem demand_download {id : ProjectId} (hroute : r.route = .download id)
    (hmethod : HttpMethod.ofName? r.method = some .get) (huser : r.auth = .authenticated user) :
    r.demand = .ok (.command user (.download id)) := by
  simp only [Request.demand, hroute, Request.httpMethod, hmethod,
    Request.user_eq_ok_iff.mpr huser]
  rfl

/-- The request to the store is made by the one who made the request to the service. -/
theorem user_of_write {x : Store.Write} (h : write? now user c = some x) : x.user = user := by
  cases c with
  | createProject | renameProject | deleteProject | createObject | deleteObject | createAction =>
    cases h
    rfl
  | listProjects | getProject | download | listObjects | getObject | listActions => cases h

/-- Are there numbers left for the rows that a request makes? -/
def HasRoom (w : Service) (now : Instant) (r : Request) : Prop :=
  ∀ user c x, r.demand = .ok (.command user c) → write? now user c = some x → x.HasRoom w.store

/-- There are numbers left if no table has come near its last one. -/
theorem hasRoom_of_tables (hprojects : w.store.projects.HasRoom 1)
    (hobjects : w.store.objects.HasRoom 1) (hactions : w.store.actions.HasRoom 1)
    (hattributes : ∀ user project o, r.demand = .ok (.command user (.createObject project o)) →
      w.store.attributes.HasRoom o.attributes.length) : w.HasRoom now r := by
  intro user c x hd hx _
  cases c with
  | createProject =>
    cases hx
    exact hprojects
  | createObject project o =>
    cases hx
    exact ⟨hobjects, hattributes user project o hd⟩
  | createAction =>
    cases hx
    exact hactions
  | renameProject | deleteProject | deleteObject =>
    cases hx
    trivial
  | listProjects | getProject | download | listObjects | getObject | listActions => cases hx

/-- A request does to the store what a request to the store does, or nothing. -/
theorem store_answer (w : Service) (now : Instant) (r : Request) :
    (w.answer now r).2.store = w.store ∨
      ∃ user c x, r.demand = .ok (.command user c) ∧ write? now user c = some x ∧
        (w.answer now r).2.store = (x.run w.store).2 := by
  rcases hd : r.demand with e | _ | ⟨user, c⟩
  · exact .inl (by rw [answer_of_refused hd])
  · exact .inl (by rw [answer_of_preflight hd])
  · rw [answer_of_command hd]
    cases hx : write? now user c with
    | none => exact .inl (perform_of_not_write hx w)
    | some x => exact .inr ⟨user, c, x, rfl, hx, (perform_of_write hx w).1⟩

/-- The store stays one that a run of requests to the store leads to. -/
theorem reachable_answer (h : w.store.Reachable) (hroom : w.HasRoom now r) :
    (w.answer now r).2.store.Reachable := by
  rcases store_answer w now r with hsame | ⟨user, c, x, hd, hx, hstore⟩
  · rw [hsame]
    exact h
  · rw [hstore]
    exact h.written x (hroom user c x hd hx)

end Service

end SchemaForge
