import SchemaForge.Proofs.Compile.Success
import SchemaForge.Proofs.Service.Refusals
import SchemaForge.Proofs.Service.Runs
import SchemaForge.Proofs.Store.Readable

/-!
# Services that do not fail

A service that starts with an empty store and an empty staging area, and has the area to itself,
never has to answer that something is wrong with itself. Its rows are consistent and can be read, its
area is tidy, and every request keeps this up; so whatever a request is refused for, it is refused
for itself.
-/

namespace SchemaForge

open ApiError (AboutRequest)

theorem ApiError.aboutRequest_ofStore {e : StoreError} (h : e.AboutRequest) :
    (ofStore e).AboutRequest := by
  cases e with
  | corrupt | backend => exact h.elim
  | projectNotFound | objectNotFound | duplicate | naming => trivial

namespace Store.Write

/-- The answer that is left out is none of the errors. -/
theorem refuses_of_unanswered {α : Type} {P : StoreError → Prop} {r : Except StoreError α}
    (h : Refuses P (unanswered r)) : Refuses P r := by
  cases r with
  | error e => exact .error (h e rfl)
  | ok a => exact .ok a

end Store.Write

namespace Service

variable {w start : Service} {now : Instant} {r : Request} {user : UserId} {c : Command}
  {id : ProjectId} {b : Location}

/-! ### Effects of a command -/

theorem writing_snd {α : Type} (w : Service) (r : Except StoreError α × Store)
    (answer : α → Response) : (w.writing r answer).2 = { w with store := r.2 } := by
  obtain ⟨outcome, s⟩ := r
  cases outcome with
  | error | ok => rfl

/-- A command that writes changes nothing but the store. -/
theorem perform_snd_of_write {x : Store.Write} (h : write? now user c = some x) (w : Service) :
    (w.perform now user c).2 = { w with store := (x.run w.store).2 } := by
  cases c with
  | createProject | renameProject | deleteProject | createObject | deleteObject | createAction =>
    cases h
    exact writing_snd ..
  | listProjects | getProject | download | listObjects | getObject | listActions => cases h

/-! ### Errors of a command -/

theorem refuses_reading {α : Type} {r : Except StoreError α} {members : α → List (String × Json)}
    (h : Refuses StoreError.AboutRequest r) : Refuses AboutRequest (reading r members) := by
  cases r with
  | error e => exact .error (ApiError.aboutRequest_ofStore (h e rfl))
  | ok a => exact .ok _

theorem refuses_writing {α : Type} {r : Except StoreError α × Store} {answer : α → Response}
    (h : Refuses StoreError.AboutRequest r.1) : Refuses AboutRequest (w.writing r answer).1 := by
  obtain ⟨outcome, s⟩ := r
  cases outcome with
  | error e => exact .error (ApiError.aboutRequest_ofStore (h e rfl))
  | ok a => exact .ok _

theorem refuses_objectWithParts {s : Store} (h : s.Readable) {objectId : ObjectId} :
    Refuses StoreError.AboutRequest (objectWithParts s user id objectId) := by
  apply Store.refuses_object.bind
  intro o _
  apply h.refuses_listAttributes.bind
  intro attributes _
  exact Store.refuses_listActions.bind fun _ _ => .ok _

theorem download_of_project_eq_error {e : StoreError} (h : w.store.project user id = .error e) :
    w.download user id = (.error (.projectNotFound id), w) := by
  have hrun : w.store.compileOn w.config user id w.files =
      (.error (.projectNotFound id), w.files) := by
    unfold Store.compileOn Store.compileOnWith Store.compileWith
    rw [Store.generate_of_project_eq_error h]
    rfl
  rw [download, hrun]
  rfl

/-! ### Nothing is wrong with the service -/

/-- The rows are consistent and can be read, and the staging area is tidy. -/
structure Healthy (w : Service) (b : Location) : Prop where
  consistent : w.store.Consistent
  readable : w.store.Readable
  tidy : (StagingArea.mk w.config.stagingRoot).Tidy w.files b

namespace Healthy

variable (h : w.Healthy b)

include h

/-- Every project of the user is answered with its archive. -/
theorem exists_download {p : ProjectRow} (hp : w.store.project user id = .ok p) :
    ∃ (a : CompiledArchive) (files : FileTree),
      w.download user id = (.ok (.attachment a.fileName a.bytes), { w with files }) ∧
        ({ w with files } : Service).Healthy b := by
  obtain ⟨g, hg⟩ := h.readable.exists_generate hp
  obtain ⟨a, files, hrun, htidy⟩ := h.consistent.exists_compileOn h.tidy hg
  exact ⟨a, files, by rw [download, hrun], h.consistent, h.readable, htidy⟩

theorem download_cases (user : UserId) (id : ProjectId) :
    w.download user id = (.error (.projectNotFound id), w) ∨
      ∃ (a : CompiledArchive) (files : FileTree),
        w.download user id = (.ok (.attachment a.fileName a.bytes), { w with files }) ∧
          ({ w with files } : Service).Healthy b := by
  rcases hp : w.store.project user id with e | p
  · exact .inl (download_of_project_eq_error hp)
  · exact .inr (h.exists_download hp)

theorem refuses_perform : Refuses AboutRequest (w.perform now user c).1 := by
  have hrun : ∀ x : Store.Write, Refuses StoreError.AboutRequest (x.run w.store).1 :=
    h.readable.refuses_run
  cases c with
  | listProjects =>
    apply refuses_reading
    obtain ⟨ps, hps⟩ := h.readable.exists_listProjects user
    rw [hps]
    exact .ok ps
  | getProject id => exact refuses_reading h.readable.refuses_getProject
  | listObjects project => exact refuses_reading Store.refuses_listObjects
  | getObject project id => exact refuses_reading (refuses_objectWithParts h.readable)
  | listActions project object => exact refuses_reading Store.refuses_listActions
  | download id =>
    show Refuses AboutRequest (w.download user id).1
    rcases h.download_cases user id with hmissing | ⟨a, files, hok, -⟩
    · rw [hmissing]
      exact .error trivial
    · rw [hok]
      exact .ok _
  | createProject p =>
    exact refuses_writing (Store.Write.refuses_of_unanswered (hrun (.createProject now user p)))
  | renameProject id name =>
    exact refuses_writing (Store.Write.refuses_of_unanswered (hrun (.renameProject user id name)))
  | deleteProject id => exact refuses_writing (hrun (.deleteProject user id))
  | createObject project o =>
    exact refuses_writing
      (Store.Write.refuses_of_unanswered (hrun (.createObject now user project o)))
  | deleteObject project id => exact refuses_writing (hrun (.deleteObject user project id))
  | createAction project object a =>
    exact refuses_writing
      (Store.Write.refuses_of_unanswered (hrun (.createAction user project object a)))

/-- No request is answered with the status of an internal error. -/
theorem status_answer_ne (now : Instant) (r : Request) : (w.answer now r).1.status ≠ 500 := by
  rcases hd : r.demand with e | _ | ⟨user, c⟩
  · rw [answer_of_refused hd]
    exact (Request.refuses_demand r e hd).status_ne
  · rw [answer_of_preflight hd]
    show 200 ≠ 500
    decide
  · rw [answer_of_command hd]
    rcases hc : (w.perform now user c).1 with e | response
    · exact (h.refuses_perform e hc).status_ne
    · have hlt : response.status < 400 := perform_status hc
      exact Nat.ne_of_lt (Nat.lt_trans hlt (by decide))

/-- After a request nothing is wrong either, as long as there are numbers for new rows. -/
theorem answer (hroom : w.HasRoom now r) : (w.answer now r).2.Healthy b := by
  rcases hd : r.demand with e | _ | ⟨user, c⟩
  · rw [answer_of_refused hd]
    exact h
  · rw [answer_of_preflight hd]
    exact h
  rw [answer_of_command hd]
  rcases hx : write? now user c with _ | x
  · -- of the commands that do not write, only a download changes anything at all
    cases c with
    | download id =>
      show (w.download user id).2.Healthy b
      rcases h.download_cases user id with hmissing | ⟨a, files, hok, hafter⟩
      · rw [hmissing]
        exact h
      · rw [hok]
        exact hafter
    | listProjects | getProject | listObjects | getObject | listActions => exact h
    | createProject | renameProject | deleteProject | createObject | deleteObject
    | createAction => cases hx
  · rw [perform_snd_of_write hx]
    exact ⟨h.consistent.run (hroom user c x hd hx), h.readable.run x, h.tidy⟩

end Healthy

/-! ### Runs -/

/-- The services that a run of requests leads to, as long as the numbers for new rows do not run
out. -/
inductive Reached (start : Service) : Service → Prop
  | start : Reached start start
  | answered {w : Service} (now : Instant) (r : Request) :
    Reached start w → w.HasRoom now r → Reached start (w.answer now r).2

theorem Reached.healthy (hw : Reached start w) (h : start.Healthy b) : w.Healthy b := by
  induction hw with
  | start => exact h
  | answered now r _ hroom ih => exact ih.answer hroom

/-- A service starts with an empty store and an empty staging area that is not too deep in the tree
for paths of the layout. Whatever requests it has answered, one after the other, it answers no
request with an internal error, and it answers the owner of a project with the archive of the
project. -/
theorem clean_service_never_fails {config : CompilerConfig} {t : FileTree} (ht : t.WellFormed)
    (hbased : (StagingArea.mk config.stagingRoot).Based t b)
    (hroomy : (StagingArea.mk config.stagingRoot).Roomy)
    (hempty : ∀ rest n, t.get? (b ++ rest) = some n → rest = [])
    (hw : Reached ⟨.empty, t, config⟩ w) (now : Instant) (r : Request) :
    (w.answer now r).1.status ≠ 500 ∧
      ∀ user id, r.route = .download id → HttpMethod.ofName? r.method = some .get →
        r.auth = .authenticated user → (∃ p ∈ w.store.projects.rows, p.id = id ∧ p.owner = user) →
        (w.answer now r).1.status = 200 := by
  have h : w.Healthy b := hw.healthy ⟨Store.consistent_empty, Store.readable_empty,
    StagingArea.tidy_of_empty ht hbased hroomy hempty⟩
  refine ⟨h.status_answer_ne now r, ?_⟩
  rintro user id hroute hmethod huser ⟨p, hp, rfl, rfl⟩
  have hfind : w.store.projects.find? p.id = some p := Table.find?_number hp
  obtain ⟨a, files, hdownload, -⟩ :=
    h.exists_download (Store.project_eq_ok_iff.mpr ⟨hfind, rfl⟩)
  rw [answer_of_command (demand_download hroute hmethod huser)]
  show (respond (w.download p.owner p.id).1).status = 200
  rw [hdownload]
  rfl

/-- In an empty store there are numbers for whatever a request may make. -/
theorem hasRoom_of_empty (h : w.store = .empty) (now : Instant) (r : Request) :
    w.HasRoom now r := by
  rintro user c x - -
  rw [h]
  have hmissing : ∀ {owner : UserId} {id : ProjectId} {p : ProjectRow},
      Store.empty.project owner id ≠ .ok p := by
    intro owner id p hp
    cases (Store.project_eq_ok_iff.mp hp).1
  intro hmet
  cases x with
  | createProject => exact (by decide : (Table.empty : Table ProjectRow).HasRoom 1)
  | createObject now owner projectId o =>
    obtain ⟨-, ⟨p, hp⟩, -⟩ := Store.admitObject_eq_ok_iff.mp hmet
    exact absurd hp hmissing
  | createAction owner projectId objectId a =>
    obtain ⟨-, ⟨o, ho⟩, -⟩ := Store.admitAction_eq_ok_iff.mp hmet
    obtain ⟨⟨p, hp⟩, -⟩ := Store.object_eq_ok_iff.mp ho
    exact absurd hp hmissing
  | renameProject | deleteProject | deleteObject => trivial

/-- A project is created, and its archive is asked for. -/
theorem new_project_is_downloaded :
    ∃ (start w : Service) (create download : Request),
      start = ⟨.empty, ⟨[([.text "out"], .directory)], []⟩, ⟨⟨"/out"⟩, .stored, true⟩⟩ ∧
      create = ⟨.projects, "POST", .authenticated 7, some (Text.utf8 "\x7b\"name\":\"Shop\"\x7d")⟩ ∧
      download = ⟨.download 1, "GET", .authenticated 7, none⟩ ∧
      w = (start.answer .epoch create).2 ∧ Reached start w ∧
      w.store.projects.rows = [⟨1, "Shop", 7, 1, .epoch⟩] ∧
      (w.answer .epoch download).1.status ≠ 500 ∧ (w.answer .epoch download).1.status = 200 := by
  let t : FileTree := ⟨[([.text "out"], .directory)], []⟩
  let start : Service := ⟨.empty, t, ⟨⟨"/out"⟩, .stored, true⟩⟩
  let create : Request :=
    ⟨.projects, "POST", .authenticated 7, some (Text.utf8 "\x7b\"name\":\"Shop\"\x7d")⟩
  let download : Request := ⟨.download 1, "GET", .authenticated 7, none⟩
  have hw : Reached start (start.answer .epoch create).2 :=
    .answered .epoch create .start (hasRoom_of_empty rfl _ _)
  have hbased : (StagingArea.mk ⟨"/out"⟩).Based t [.text "out"] :=
    (if_neg (by decide)).mpr (by decide +kernel)
  have hempty : ∀ rest n, t.get? ([.text "out"] ++ rest) = some n → rest = [] := by
    intro rest n hn
    simp [t, FileTree.get?, FileTree.lookup_cons_ite] at hn
    exact hn.1
  have hrows : (start.answer .epoch create).2.store.projects.rows =
      [⟨1, "Shop", 7, 1, .epoch⟩] := by
    decide +kernel
  obtain ⟨hstatus, hdownload⟩ := clean_service_never_fails (by decide +kernel) hbased
    (by decide +kernel) hempty hw .epoch download
  refine ⟨start, _, create, download, rfl, rfl, rfl, rfl, hw, hrows, hstatus, ?_⟩
  refine hdownload 7 1 rfl (by decide +kernel) rfl ⟨⟨1, "Shop", 7, 1, .epoch⟩, ?_, rfl, rfl⟩
  rw [hrows]
  exact List.mem_singleton_self _

end Service

end SchemaForge
