import SchemaForge.Proofs.Service.Runs
import SchemaForge.Proofs.Store.Isolation

/-!
# Users apart from each other

A user is answered as if there were no other users, down to the words of a refusal: a row of another
owner is not told apart from one that is missing. Those who are not signed in are answered without a
look at the service.
-/

namespace SchemaForge

namespace Service

variable {w : Service} {now : Instant} {r : Request} {user : UserId}

/-- The service with the rows of one user alone. -/
def ownedBy (w : Service) (user : UserId) : Service := { w with store := w.store.ownedBy user }

/-! ### What an answer shows of the store -/

theorem writing_fst (w : Service) (r : Except StoreError α × Store) (answer : α → Response) :
    (w.writing r answer).1 = (r.1.map answer).mapError .ofStore := by
  obtain ⟨outcome, s⟩ := r
  cases outcome <;> rfl

/-- An answer that does not show what was written shows whether it was. -/
theorem writing_const_fst (w : Service) (r : Except StoreError α × Store) (response : Response) :
    (w.writing r fun _ => response).1 =
      ((Store.Write.unanswered r.1).map fun _ => response).mapError .ofStore := by
  obtain ⟨outcome, s⟩ := r
  cases outcome <;> rfl

theorem writing_files (w : Service) (r : Except StoreError α × Store) (answer : α → Response) :
    (w.writing r answer).2.files = w.files := by
  obtain ⟨outcome, s⟩ := r
  cases outcome <;> rfl

/-! ### What a command of a user shows -/

theorem objectWithParts_ownedBy {s : Store} (h : s.Consistent) {projectId : ProjectId}
    {objectId : ObjectId} :
    objectWithParts (s.ownedBy user) user projectId objectId =
      objectWithParts s user projectId objectId := by
  simp only [objectWithParts, Store.getObject_ownedBy, h.listAttributes_ownedBy,
    h.listActions_ownedBy]

theorem download_ownedBy (h : w.store.Consistent) {id : ProjectId} :
    ((w.ownedBy user).download user id).1 = (w.download user id).1 ∧
      ((w.ownedBy user).download user id).2.files = (w.download user id).2.files := by
  have hsame : (w.ownedBy user).store.compileOn (w.ownedBy user).config user id
      (w.ownedBy user).files = w.store.compileOn w.config user id w.files :=
    h.compileOn_ownedBy w.config w.files
  simp only [download, hsame]
  rcases w.store.compileOn w.config user id w.files with ⟨_ | _, files⟩
  · exact ⟨rfl, rfl⟩
  · exact ⟨rfl, rfl⟩

/-- A command of a user has the same outcome and the same effect on files among the rows of the user
alone. -/
theorem perform_ownedBy (h : w.store.Consistent) (now : Instant) (c : Command) :
    ((w.ownedBy user).perform now user c).1 = (w.perform now user c).1 ∧
      ((w.ownedBy user).perform now user c).2.files = (w.perform now user c).2.files := by
  have hrun : ∀ x, write? now user c = some x →
      (x.run (w.store.ownedBy user)).1 = (x.run w.store).1 :=
    fun x hx => user_of_write hx ▸ h.run_ownedBy x
  cases c with
  | listProjects =>
    simp only [perform, ownedBy, Store.listProjects_ownedBy, and_self]
  | getProject id =>
    simp only [perform, ownedBy, Store.getProject_ownedBy, and_self]
  | listObjects project =>
    simp only [perform, ownedBy, Store.listObjects_ownedBy, and_self]
  | getObject project id =>
    simp only [perform, ownedBy, objectWithParts_ownedBy h, and_self]
  | listActions project object =>
    simp only [perform, ownedBy, h.listActions_ownedBy, and_self]
  | download id => exact download_ownedBy h
  | renameProject id name =>
    simp only [perform, ownedBy, writing_fst, writing_files, Store.renameProject_ownedBy, and_self]
  | createProject | deleteProject | createObject | deleteObject | createAction =>
    replace hrun := hrun _ rfl
    simp only [Store.Write.run, Prod.map_fst] at hrun
    simp only [perform, ownedBy, writing_const_fst, writing_files, hrun, and_self]

/-! ### Requests -/

/-- A request of a user has the same answer and the same effect on files among the rows of the user
alone. -/
theorem answer_ownedBy (h : w.store.Consistent) (now : Instant)
    (huser : r.auth = .authenticated user) :
    ((w.ownedBy user).answer now r).1 = (w.answer now r).1 ∧
      ((w.ownedBy user).answer now r).2.files = (w.answer now r).2.files := by
  rcases hd : r.demand with e | _ | ⟨user', c⟩
  · rw [answer_of_refused hd, answer_of_refused hd]
    exact ⟨rfl, rfl⟩
  · rw [answer_of_preflight hd, answer_of_preflight hd]
    exact ⟨rfl, rfl⟩
  · obtain rfl : user' = user :=
      AuthState.authenticated.inj ((Request.auth_of_demand hd).symm.trans huser)
    obtain ⟨houtcome, hfiles⟩ := perform_ownedBy h now c
    rw [answer_of_command hd, answer_of_command hd]
    exact ⟨congrArg respond houtcome, hfiles⟩

/-- A request of a user changes no row of others. -/
theorem answer_others (h : w.store.Consistent) (huser : r.auth = .authenticated user)
    (hroom : w.HasRoom now r) :
    (w.answer now r).2.store.ownedByOthers user = w.store.ownedByOthers user := by
  rcases store_answer w now r with hsame | ⟨user', c, x, hd, hx, hstore⟩
  · rw [hsame]
  · obtain rfl : user' = user :=
      AuthState.authenticated.inj ((Request.auth_of_demand hd).symm.trans huser)
    have hothers := h.run_others (hroom user' c x hd hx)
    rw [user_of_write hx] at hothers
    rw [hstore, hothers]

/-- A request of nobody is answered without a look at the service. -/
theorem answer_anonymous (hnobody : r.auth = .anonymous) :
    ∃ response, ∀ (w : Service) (now : Instant), w.answer now r = (response, w) := by
  rcases hd : r.demand with e | _ | ⟨user, c⟩
  · exact ⟨_, fun _ _ => answer_of_refused hd⟩
  · exact ⟨_, fun _ _ => answer_of_preflight hd⟩
  · have huser := Request.auth_of_demand hd
    rw [hnobody] at huser
    cases huser

/-- Whatever run of requests led to the store and whatever files are around: a request of a user is
answered, and changes files, as if there were no rows of others, and it changes no row of others. A
request of someone who is not signed in is answered in the same way by every service, at any time,
and changes nothing. -/
theorem users_are_isolated (w : Service) (h : w.store.Reachable) (now : Instant) (r : Request) :
    (∀ user, r.auth = .authenticated user →
      (w.answer now r).1 = ((w.ownedBy user).answer now r).1 ∧
        (w.answer now r).2.files = ((w.ownedBy user).answer now r).2.files ∧
        (w.HasRoom now r →
          (w.answer now r).2.store.ownedByOthers user = w.store.ownedByOthers user)) ∧
      (r.auth = .anonymous →
        (∀ (w' : Service) (now' : Instant), (w'.answer now' r).1 = (w.answer now r).1) ∧
          (w.answer now r).2 = w) := by
  refine ⟨fun user huser => ?_, fun hnobody => ?_⟩
  · obtain ⟨hresponse, hfiles⟩ := answer_ownedBy h.consistent now huser
    exact ⟨hresponse.symm, hfiles.symm, answer_others h.consistent huser⟩
  · obtain ⟨response, hresponse⟩ := answer_anonymous hnobody
    refine ⟨fun w' now' => ?_, ?_⟩
    · rw [hresponse, hresponse]
    · rw [hresponse]

/-- Two users with a project each. User 7 asks for the project of user 8, which is answered like a
project that is missing, and deletes the own one, which leaves the other with its object. -/
theorem foreign_project_is_missing_and_stays :
    ∃ (rows : Snapshot) (w : Service) (ask delete : Request),
      rows = ⟨[⟨3, "Shop", 8, 1, .epoch⟩, ⟨5, "Shop", 7, 1, .epoch⟩],
        [⟨1, "Item", 3, 8, .epoch⟩, ⟨2, "Item", 5, 7, .epoch⟩], [], []⟩ ∧
      Store.ofSnapshot rows = .ok w.store ∧
      ask = ⟨.project 3, "GET", .authenticated 7, none⟩ ∧
      delete = ⟨.project 5, "DELETE", .authenticated 7, none⟩ ∧
      (w.ownedBy 7).store.projects.rows.map ProjectRow.id = [5] ∧
      (w.answer .epoch ask).1 = ((w.ownedBy 7).answer .epoch ask).1 ∧
      (w.answer .epoch ask).1.status = 400 ∧ (w.answer .epoch delete).1.status = 200 ∧
      (w.answer .epoch delete).2.store.objects.rows = [⟨1, "Item", 3, 8, .epoch⟩] ∧
      (w.answer .epoch delete).2.store.ownedByOthers 7 = w.store.ownedByOthers 7 := by
  let rows : Snapshot := ⟨[⟨3, "Shop", 8, 1, .epoch⟩, ⟨5, "Shop", 7, 1, .epoch⟩],
    [⟨1, "Item", 3, 8, .epoch⟩, ⟨2, "Item", 5, 7, .epoch⟩], [], []⟩
  let w : Service := ⟨Store.ofRows rows, ⟨[], []⟩, ⟨⟨"/out"⟩, .stored, true⟩⟩
  let ask : Request := ⟨.project 3, "GET", .authenticated 7, none⟩
  let delete : Request := ⟨.project 5, "DELETE", .authenticated 7, none⟩
  have hload : Store.ofSnapshot rows = .ok w.store := by with_unfolding_all rfl
  have hmethod : HttpMethod.ofName? "DELETE" = some .delete := by decide +kernel
  have hdelete : delete.demand = .ok (.command 7 (.deleteProject 5)) := by
    simp only [delete, Request.demand, Request.httpMethod, hmethod]
    rfl
  have hroom : w.HasRoom .epoch delete := by
    intro user c x hd hx
    rw [hdelete] at hd
    cases hd
    cases hx
    exact fun _ => trivial
  obtain ⟨hask, -⟩ := users_are_isolated w (.loaded hload) .epoch ask
  obtain ⟨hothers, -⟩ := users_are_isolated w (.loaded hload) .epoch delete
  obtain ⟨hsame, -, -⟩ := hask 7 rfl
  obtain ⟨-, -, hkept⟩ := hothers 7 rfl
  exact ⟨rows, w, ask, delete, rfl, hload, rfl, rfl, by decide +kernel, hsame, by decide +kernel,
    by decide +kernel, by decide +kernel, hkept hroom⟩

end Service

end SchemaForge
